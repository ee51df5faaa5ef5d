import PortManager.Base.Run

/-!
# The suspension of the automatic start

Embeds `DaemonStartIntentStore` of `src/agent/daemon-start-intent.ts`. Hosts share a directory with one marker for each
stop. Every file-system call is a step of its own, any number of calls of the store are in progress at a time, and any
step may fail. The markers that a `resume` removes are its own set, read or handed over.
-/

namespace PortManager.Extension
open Run List

def isMarker (name : String) : Bool :=
  name.length = 32 && name.toList.all fun c => c.isDigit || ('a' ≤ c && c ≤ 'f')

inductive StoreAnswer where
  | suspended (answer : Bool)
  | markers (markers : List String)
  | resumed (answer : Bool)

inductive Purpose where
  | isSuspended
  | observe
  | suspend (marker : String)
  /-- the default set of `resume` -/
  | resume
  | validate (markers : List String)
  /-- the `isSuspended` of `resume` -/
  | confirm

inductive StoreCall where
  | mkdir (marker : String)
  | lstat (purpose : Purpose)
  | readdir (purpose : Purpose)
  | create (previous : List String) (marker : String)
  | close (markers : List String)
  /-- a `resume` with its set, at one of the markers -/
  | unlink (markers : List String) (place : Nat)
  | returned (answer : StoreAnswer)
  | threw

/-- `markers` returns. -/
def Purpose.listed (names : List String) : Purpose → StoreCall
  | .isSuspended => .returned (.suspended !names.isEmpty)
  | .observe => .returned (.markers names)
  | .suspend marker => .create names marker
  | .resume => .lstat (.validate names)
  | .validate markers => .unlink markers 0
  | .confirm => .returned (.resumed names.isEmpty)

/-- One file-system call: the directory, if there is one, and what comes next. An error is one that is thrown on; for
`lstat` also a directory that is not private. -/
def StoreCall.next (directory : Option (List String)) (error : Bool) : StoreCall → Option (List String) × StoreCall
  | .mkdir marker =>
    if error then (directory, .threw) else (some (directory.getD []), .lstat (.suspend marker))
  | .lstat purpose =>
    (directory, if error then .threw else if directory.isSome then .readdir purpose else purpose.listed [])
  | .readdir purpose =>
    (directory, match directory with
      | none => .threw
      | some names => if error || !names.all isMarker then .threw else purpose.listed names)
  | .create previous marker =>
    if error || directory.isNone || marker ∈ directory.getD [] then (directory, .threw)
    else (directory.map (· ++ [marker]), .close (previous ++ [marker]))
  | .close markers => (directory, if error then .threw else .returned (.markers markers))
  | .unlink markers place =>
    match markers[place]? with
    | none => (directory, .lstat .confirm)
    | some marker =>
      if error || !isMarker marker then (directory, .threw)
      else (directory.map (·.filter (· ≠ marker)), .unlink markers (place + 1))
  | call => (directory, call)

structure StoreWorld where
  directory : Option (List String)
  calls : List StoreCall

inductive StoreEvent where
  | suspend (marker : String)
  | observe
  | isSuspended
  | resume (markers : Option (List String))
  | next (index : Nat) (error : Bool)

namespace StoreWorld

def step (world : StoreWorld) : StoreEvent → StoreWorld
  | .suspend marker => { world with calls := world.calls ++ [.mkdir marker] }
  | .observe => { world with calls := world.calls ++ [.lstat .observe] }
  | .isSuspended => { world with calls := world.calls ++ [.lstat .isSuspended] }
  | .resume markers => { world with calls := world.calls ++ [.lstat (markers.elim .resume .validate)] }
  | .next index error =>
    match world.calls[index]? with
    | none => world
    | some call =>
      ⟨(call.next world.directory error).1, world.calls.set index (call.next world.directory error).2⟩

def Has (world : StoreWorld) (marker : String) : Prop := ∃ names, world.directory = some names ∧ marker ∈ names

/-- The event is the removal of the marker by a `resume` that has it in its set. -/
def Removes (world : StoreWorld) (marker : String) : StoreEvent → Prop
  | .next index _ => ∃ markers place, world.calls[index]? = some (.unlink markers place) ∧ markers[place]? = some marker
  | _ => False

end StoreWorld

variable {names : List String} {marker : String} {call : StoreCall} {error : Bool}

lemma StoreCall.next_keeps (h : marker ∈ names)
    (hkeeps : ∀ markers place, call = .unlink markers place → markers[place]? ≠ some marker) :
    ∃ names', (call.next (some names) error).1 = some names' ∧ marker ∈ names' := by
  have hsame : ∃ names', some names = some names' ∧ marker ∈ names' := ⟨names, rfl, h⟩
  cases call with
  | mkdir =>
    rw [StoreCall.next]
    split <;> exact hsame
  | create previous other =>
    rw [StoreCall.next]
    split
    · exact hsame
    · exact ⟨_, rfl, mem_append_left _ h⟩
  | unlink markers place =>
    rw [StoreCall.next]
    split
    · exact hsame
    next other hother =>
      split
      · exact hsame
      · have hne : marker ≠ other := fun heq => hkeeps markers place rfl (heq ▸ hother)
        exact ⟨_, rfl, mem_filter.mpr ⟨h, by simpa using hne⟩⟩
  | _ => exact hsame

lemma StoreCall.next_create {directory : Option (List String)} {previous markers : List String}
    (h : ((StoreCall.create previous marker).next directory error).2 = .close markers) :
    markers = previous ++ [marker] ∧
      ∃ names, ((StoreCall.create previous marker).next directory error).1 = some names ∧ marker ∈ names := by
  rw [StoreCall.next] at h ⊢
  split at h
  next => cases h
  next hfree =>
    rw [if_neg hfree]
    cases directory with
    | none => simp at hfree
    | some names =>
      cases h
      exact ⟨rfl, _, rfl, by simp⟩

/-- An `isSuspended` that has not said no. -/
def StoreCall.Asks : StoreCall → Prop
  | .lstat .isSuspended | .readdir .isSuspended | .threw => True
  | .returned (.suspended answer) => answer = true
  | _ => False

lemma StoreCall.Asks.next (h : call.Asks) (hmarker : marker ∈ names) : (call.next (some names) error).2.Asks := by
  unfold StoreCall.Asks at h
  split at h
  next => cases error <;> trivial
  next =>
    simp only [StoreCall.next]
    split
    · trivial
    · simp [Purpose.listed, StoreCall.Asks, ne_nil_of_mem hmarker]
  next => trivial
  next => exact h
  next => exact h.elim

namespace StoreWorld

variable {world : StoreWorld} {id : Nat}

lemma Has.step {event : StoreEvent} (h : world.Has marker) (hkept : ¬ world.Removes marker event) :
    (world.step event).Has marker := by
  obtain ⟨names, hnames, hmem⟩ := h
  have hsame : ∃ names, world.directory = some names ∧ marker ∈ names := ⟨names, hnames, hmem⟩
  cases event with
  | next index error =>
    simp only [StoreWorld.step]
    split
    · exact hsame
    next call hcall =>
      rw [hnames]
      refine StoreCall.next_keeps hmem fun markers place heq hplace => hkept ⟨markers, place, ?_, hplace⟩
      rw [hcall, heq]
  | _ => exact hsame

def Asked (world : StoreWorld) (id : Nat) : Prop := ∃ call, world.calls[id]? = some call ∧ call.Asks

lemma Asked.step (h : world.Asked id) (hmarker : world.Has marker) (event : StoreEvent) : (world.step event).Asked id := by
  obtain ⟨call, hcall, hasks⟩ := h
  cases event with
  | next index error =>
    simp only [StoreWorld.step]
    split
    · exact ⟨call, hcall, hasks⟩
    next other hother =>
      by_cases hid : index = id
      · subst hid
        obtain rfl := Option.mem_unique hcall hother
        obtain ⟨names, hnames, hmem⟩ := hmarker
        rw [hnames]
        exact ⟨_, List.getElem?_set_self (List.getElem?_eq_some_iff.mp hcall).1, hasks.next hmem⟩
      · exact ⟨call, (List.getElem?_set_ne hid).trans hcall, hasks⟩
  | _ => exact ⟨call, (List.getElem?_append_left (List.getElem?_eq_some_iff.mp hcall).1).trans hcall, hasks⟩

/-- From any state: a `suspend` that is past its creation has its marker in the directory, a marker is only removed by a
`resume` that has it in its set, and until that happens every `isSuspended` that is called and returns says so. -/
theorem suspension_kept (world : StoreWorld) (marker : String) :
    (∀ index previous error markers, world.calls[index]? = some (.create previous marker) →
      (world.step (.next index error)).calls[index]? = some (.close markers) →
      markers = previous ++ [marker] ∧ (world.step (.next index error)).Has marker) ∧
    (∀ event, world.Has marker → ¬ (world.step event).Has marker → world.Removes marker event) ∧
    ∀ events, world.Has marker → StepsMeet step (fun world event => ¬ world.Removes marker event) world events →
      (run step world events).Has marker ∧
      ∀ before rest answer, events = before ++ .isSuspended :: rest →
        (run step world events).calls[(run step world before).calls.length]? = some (.returned (.suspended answer)) →
        answer = true := by
  have hlasts : ∀ {world : StoreWorld} {events}, world.Has marker →
      StepsMeet step (fun world event => ¬ world.Removes marker event) world events → (run step world events).Has marker :=
    fun hmarker => run_invariant (I := (Has · marker)) (fun _ _ => Has.step) hmarker
  refine ⟨?_, ?_, fun events hmarker hkept => ⟨hlasts hmarker hkept, ?_⟩⟩
  · intro index previous error markers hcall hclose
    simp only [step, hcall, List.getElem?_set_self (List.getElem?_eq_some_iff.mp hcall).1] at hclose ⊢
    exact StoreCall.next_create (Option.some.inj hclose)
  · intro event hmarker hgone
    by_contra hkept
    exact hgone (hmarker.step hkept)
  rintro before rest answer rfl hanswer
  obtain ⟨hbefore, -, hrest⟩ := stepsMeet_append.mp hkept
  rw [run_append, run_cons] at hanswer
  generalize hid : (run step world before).calls.length = id at hanswer
  have hasked : (step (run step world before) .isSuspended).Asked id :=
    ⟨.lstat .isSuspended, by simp [step, ← hid], trivial⟩
  obtain ⟨-, call, hcall, hasks⟩ := run_invariant (I := fun world => world.Has marker ∧ world.Asked id)
    (fun world event h hkeeps => ⟨h.1.step hkeeps, h.2.step h.1 event⟩) ⟨hlasts hmarker hbefore, hasked⟩ hrest
  obtain rfl := Option.mem_unique hcall hanswer
  exact hasks

end StoreWorld

end PortManager.Extension
