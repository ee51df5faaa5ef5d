import PortManager.Hook.NetworkScope

/-!
# The interfaces that a process sees

Embeds `pm_getifaddrs_hook`: a process in a network does not see the loopback aliases of other networks. The list that the real
`getifaddrs` has made is changed in place. Its head stays, because the caller frees the list by it, and takes over the first entry
that is shown when it is an alias of another network itself.
-/

namespace PortManager.Hook
open CText List Function

def hasCurrentNetworkScope (environ : List Text) : Bool := (present (currentNetworkId environ)).isSome

def networkScopeIsGlobal (environ : List Text) : Bool :=
  envpValue environ (ascii "PORT_MANAGER_NETWORK_IS_GLOBAL") = some (ascii "1") && hasCurrentNetworkScope environ &&
    (present (envpValue environ (ascii "PORT_MANAGER_NETWORK_NAME"))).isNone

inductive Sockaddr where
  | inet (address : UInt32)
  | other (bytes : Text)
deriving DecidableEq

/-- An entry but for its link; the fields that the hook does not look at are one value. -/
structure Interface (δ : Type) where
  addr : Option Sockaddr
  netmask : Option Sockaddr
  others : δ
deriving DecidableEq

structure Ifaddrs (δ : Type) extends Interface δ where
  next : Option Nat

/-- The memory by addresses. -/
abbrev Heap (δ : Type) := Nat → Ifaddrs δ

variable {δ : Type} (ownHosts : List (Option UInt32))

/-- `ownHosts` are the aliases of the process, as `inet_pton` reads them. -/
def loopbackAddrIsVisible (address : UInt32) : Bool := address = 0x7f000001 || ownHosts.any (· = some address)

def ifaddrIsForeignLoopback (entry : Interface δ) : Bool :=
  match entry.addr with
  | some (.inet address) => address >>> 24 = 127 && !loopbackAddrIsVisible ownHosts address
  | _ => false

/-- The loop that unlinks the foreign entries behind an entry, for a number of rounds. -/
def unlinkForeign : Nat → Heap δ → Nat → Heap δ
  | 0, heap, _ => heap
  | rounds + 1, heap, previous =>
    match (heap previous).next with
    | none => heap
    | some next =>
      if ifaddrIsForeignLoopback ownHosts (heap next).toInterface then
        unlinkForeign rounds (Function.update heap previous { heap previous with next := (heap next).next }) previous
      else unlinkForeign rounds heap next

/-- `pm_getifaddrs_hook` on a list that the real function has returned. -/
def getifaddrs (environ : List Text) (rounds : Nat) (heap : Heap δ) (head : Nat) : Heap δ :=
  if !hookEnabled environ || !hasCurrentNetworkScope environ || networkScopeIsGlobal environ then heap
  else
    let heap := unlinkForeign ownHosts rounds heap head
    if ifaddrIsForeignLoopback ownHosts (heap head).toInterface then
      match (heap head).next with
      | some next => Function.update heap head (heap next)
      | none => Function.update heap head { heap head with addr := none, netmask := none }
    else heap

/-! ## Lists in memory -/

/-- The entries that a pointer leads to, with their addresses. -/
def Represents (heap : Heap δ) : Option Nat → List (Nat × Interface δ) → Prop
  | start, [] => start = none
  | start, (pointer, entry) :: cells =>
    start = some pointer ∧ (heap pointer).toInterface = entry ∧ Represents heap (heap pointer).next cells

variable {heap heap' : Heap δ} {start : Option Nat} {cells : List (Nat × Interface δ)}

lemma Represents.congr (h : Represents heap start cells) (hsame : ∀ cell ∈ cells, heap' cell.1 = heap cell.1) :
    Represents heap' start cells := by
  induction cells generalizing start with
  | nil => exact h
  | cons cell cells ih =>
    obtain ⟨hcell, hrest⟩ := forall_mem_cons.mp hsame
    exact ⟨h.1, hcell ▸ h.2.1, hcell ▸ ih h.2.2 hrest⟩

/-- The entries that are shown. -/
def shownCells (cells : List (Nat × Interface δ)) : List (Nat × Interface δ) :=
  cells.filter fun cell => !ifaddrIsForeignLoopback ownHosts cell.2

/-- Behind an entry the loop leaves the entries that are shown; the entry itself changes at most its link. -/
lemma unlinkForeign_spec {rounds previous : Nat} (h : Represents heap (heap previous).next cells)
    (hnodup : (previous :: cells.map Prod.fst).Nodup) (hrounds : cells.length ≤ rounds) :
    Represents (unlinkForeign ownHosts rounds heap previous) (unlinkForeign ownHosts rounds heap previous previous).next
      (shownCells ownHosts cells) ∧
    (unlinkForeign ownHosts rounds heap previous previous).toInterface = (heap previous).toInterface ∧
    ∀ pointer ∉ previous :: cells.map Prod.fst, unlinkForeign ownHosts rounds heap previous pointer = heap pointer := by
  induction cells generalizing heap previous rounds with
  | nil =>
    have hend : unlinkForeign ownHosts rounds heap previous = heap := by
      cases rounds with
      | zero => rfl
      | succ rounds => rw [unlinkForeign, show (heap previous).next = none from h]
    rw [hend]
    exact ⟨h, rfl, fun _ _ => rfl⟩
  | cons cell cells ih =>
    obtain ⟨next, entry⟩ := cell
    obtain ⟨hnext, rfl, hcells⟩ := h
    obtain ⟨rounds, rfl⟩ := Nat.exists_eq_succ_of_ne_zero (Nat.ne_zero_of_lt hrounds)
    obtain ⟨hprevious, hrest⟩ := nodup_cons.mp hnodup
    rw [map_cons, mem_cons, not_or] at hprevious
    have hfewer : cells.length ≤ rounds := Nat.le_of_succ_le_succ hrounds
    simp only [unlinkForeign, hnext, shownCells]
    split
    next hforeign =>
      -- the entry is skipped, and the one before it is looked at again
      have hframe : ∀ pointer ≠ previous, update heap previous { heap previous with next := (heap next).next } pointer =
          heap pointer := fun pointer hne => update_of_ne hne _ _
      have hskips : Represents (update heap previous { heap previous with next := (heap next).next })
          (update heap previous { heap previous with next := (heap next).next } previous).next cells := by
        rw [update_self]
        exact hcells.congr fun cell hcell => hframe _ fun heq => hprevious.2 (heq ▸ mem_map_of_mem hcell)
      obtain ⟨hkept, hcontents, hother⟩ := ih hskips (nodup_cons.mpr ⟨hprevious.2, (nodup_cons.mp hrest).2⟩) hfewer
      rw [filter_cons_of_neg (by simp [hforeign])]
      refine ⟨hkept, by rw [hcontents, update_self], fun pointer hpointer => ?_⟩
      rw [hother pointer (by simp_all), hframe pointer (by rintro rfl; simp at hpointer)]
    next hshown =>
      obtain ⟨hkept, hcontents, hother⟩ := ih hcells hrest hfewer
      have hsame := hother previous (by simp [hprevious])
      rw [filter_cons_of_pos (by simp [hshown]), hsame]
      exact ⟨⟨hnext, hcontents, hkept⟩, rfl, fun pointer hpointer => hother pointer fun hmem => hpointer (mem_cons_of_mem _ hmem)⟩

/-- What a process in a network is shown of some entries: those that are not foreign, or the first one without addresses. -/
def shownEntries (entries : List (Interface δ)) : List (Interface δ) :=
  match entries.filter fun entry => !ifaddrIsForeignLoopback ownHosts entry with
  | [] => (entries.take 1).map fun entry => { entry with addr := none, netmask := none }
  | kept => kept

/-- With the hook on, the list at the same head has the entries that a process in a network is shown, in their order. -/
theorem interfaces_shown {environ : List Text} {rounds head : Nat}
    (hscope : (hookEnabled environ && hasCurrentNetworkScope environ && !networkScopeIsGlobal environ) = true)
    (h : Represents heap (some head) cells) (hnodup : (cells.map Prod.fst).Nodup) (hrounds : cells.length ≤ rounds) :
    ∃ result, Represents (getifaddrs ownHosts environ rounds heap head) (some head) result ∧
      result.map Prod.snd = shownEntries ownHosts (cells.map Prod.snd) := by
  cases cells with
  | nil => cases h
  | cons cell cells =>
    obtain ⟨pointer, entry⟩ := cell
    obtain ⟨hhead, rfl, hcells⟩ := h
    obtain rfl := Option.some.inj hhead
    obtain ⟨hkept, hcontents, -⟩ := unlinkForeign_spec ownHosts hcells hnodup (Nat.le_of_succ_le hrounds)
    simp only [Bool.and_eq_true, Bool.not_eq_true'] at hscope
    simp only [getifaddrs, hscope, Bool.not_true, Bool.or_false, Bool.false_eq_true, if_false, hcontents]
    generalize unlinkForeign ownHosts rounds heap head = after at hkept hcontents
    have hshownCells : (cells.map Prod.snd).filter (fun entry => !ifaddrIsForeignLoopback ownHosts entry) =
        (shownCells ownHosts cells).map Prod.snd := filter_map ..
    rw [shownEntries, map_cons]
    split
    next hforeign =>
      rw [filter_cons_of_neg (by simp [hforeign]), hshownCells]
      cases hshown : shownCells ownHosts cells with
      | nil =>
        rw [hshown] at hkept
        simp only [show (after head).next = none from hkept]
        exact ⟨[(head, _)], ⟨rfl, rfl, by rw [update_self]; rfl⟩, by simp [← hcontents]⟩
      | cons cell more =>
        -- the head takes over the first entry that is shown
        rw [hshown] at hkept
        obtain ⟨hnext, hentry, hmore⟩ := hkept
        simp only [hnext]
        refine ⟨(head, cell.2) :: more, ⟨rfl, by rw [update_self, hentry], ?_⟩, rfl⟩
        rw [update_self]
        refine hmore.congr fun other hother => update_of_ne (fun heq => (nodup_cons.mp hnodup).1 ?_) _ _
        have hmem : other ∈ shownCells ownHosts cells := hshown ▸ mem_cons_of_mem _ hother
        show head ∈ cells.map Prod.fst
        rw [← heq]
        exact mem_map_of_mem (mem_of_mem_filter hmem)
    next hshown =>
      rw [filter_cons_of_pos (by simp [hshown]), hshownCells]
      exact ⟨(head, _) :: shownCells ownHosts cells, ⟨rfl, hcontents, hkept⟩, rfl⟩

/-- An alias of another network, and `127.0.0.1`. -/
def sampleHeap : Heap Unit
  | 0 => ⟨⟨some (.inet 0x7f000002), none, ()⟩, some 1⟩
  | _ => ⟨⟨some (.inet 0x7f000001), none, ()⟩, none⟩

theorem interfaces_shown_sample :
    ∃ result, Represents (getifaddrs [] [ascii "PORT_MANAGER_NETWORK_ID=a"] 2 sampleHeap 0) (some 0) result ∧
      result.map Prod.snd = [(sampleHeap 1).toInterface] :=
  interfaces_shown [] (by decide +kernel)
    (show Represents _ _ [(0, (sampleHeap 0).toInterface), (1, (sampleHeap 1).toInterface)] from ⟨rfl, rfl, rfl, rfl, rfl⟩)
    (by decide) (by decide)

/-- A process in a network that switches the hook off sees the alias. -/
theorem interfaces_of_disabled_hook :
    let environ := [ascii "PORT_MANAGER_NETWORK_ID=a", ascii "PORT_MANAGER_HOOK=0"]
    hasCurrentNetworkScope environ = true ∧ networkScopeIsGlobal environ = false ∧
      ((getifaddrs [] environ 2 sampleHeap 0) 0).addr = some (.inet 0x7f000002) ∧
      ifaddrIsForeignLoopback [] (sampleHeap 0).toInterface = true := by
  decide +kernel

end PortManager.Hook
