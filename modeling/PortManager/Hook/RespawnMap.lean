import Mathlib

/-!
# The map of relaunched children

A parent that relaunches a child records the pair of the child's pid and its replacement's pid, sends the child a signal, and keeps the pid of
a child whose replacement is gone in a ring, the graveyard. `kill` of the preloaded library goes to the replacement of a recorded child; so does
the signal of the relaunch itself (`sigterm_reaches_original_iff`).
-/

namespace PortManager.Hook
open List Option

abbrev Pid := Int

def respawnMapMax : Nat := 256

def respawnGraveyardMax : Nat := 256

structure RespawnMap where
  pairs : List (Pid × Pid)
  graveyard : List Pid
  graveyardHead : Nat
  active : Bool
  pairs_length : pairs.length ≤ respawnMapMax
  graveyard_length : graveyard.length = respawnGraveyardMax
  graveyardHead_lt : graveyardHead < respawnGraveyardMax

namespace RespawnMap

def initial : RespawnMap where
  pairs := []
  graveyard := List.replicate respawnGraveyardMax 0
  graveyardHead := 0
  active := false
  pairs_length := Nat.zero_le _
  graveyard_length := List.length_replicate
  graveyardHead_lt := by decide

variable (map : RespawnMap)

/-- `pm_respawn_graveyard_add_locked`. -/
def graveyardAdd (oldPid : Pid) : RespawnMap :=
  { map with
    graveyard := map.graveyard.set map.graveyardHead oldPid
    graveyardHead := (map.graveyardHead + 1) % respawnGraveyardMax
    active := true
    graveyard_length := by rw [List.length_set, map.graveyard_length]
    graveyardHead_lt := Nat.mod_lt _ (by decide) }

def inGraveyard (pid : Pid) : Bool := map.graveyard.contains pid

/-- `pm_respawn_map_record`: without room the pair is not recorded. -/
def record (oldPid newPid : Pid) : RespawnMap :=
  if h : map.pairs.length < respawnMapMax then
    { map with
      pairs := map.pairs ++ [(oldPid, newPid)]
      active := true
      pairs_length := by rw [List.length_append, List.length_singleton]; exact h }
  else map

/-- `pm_respawn_new_for_old`. -/
def newForOld (oldPid : Pid) : Option Pid := (map.pairs.find? fun pair => pair.1 = oldPid).map Prod.snd

/-- The pairs without one of them, in whose place the last one moves. -/
def withoutPair (pairs : List (Pid × Pid)) (index : Nat) : List (Pid × Pid) :=
  match pairs.getLast? with
  | some last => (pairs.set index last).dropLast
  | none => []

lemma length_withoutPair (pairs : List (Pid × Pid)) (index : Nat) : (withoutPair pairs index).length ≤ pairs.length := by
  rw [withoutPair]
  split
  · rw [length_dropLast, length_set]
    omega
  · exact Nat.zero_le _

/-- `pm_respawn_retire_by_new`: the original of a replacement, which goes to the graveyard. -/
def retireByNew (newPid : Pid) : Option Pid × RespawnMap :=
  match map.pairs.findIdx? fun pair => pair.2 = newPid with
  | some index =>
    match map.pairs[index]? with
    | some pair =>
      (some pair.1, { map.graveyardAdd pair.1 with
        pairs := withoutPair map.pairs index
        pairs_length := (length_withoutPair map.pairs index).trans map.pairs_length })
    | none => (none, map)
  | none => (none, map)

/-- `pm_respawn_is_suppressed_old`: the first sighting of a killed original takes it to the graveyard. -/
def isSuppressedOld (pid : Pid) : Bool × RespawnMap :=
  if map.inGraveyard pid then (true, map)
  else if map.pairs.any fun pair => pair.1 = pid then (true, map.graveyardAdd pid)
  else (false, map)

/-- The process that `pm_kill_hook` signals. -/
def killTarget (hookDepth : Nat) (pid : Pid) : Pid :=
  if hookDepth = 0 ∧ map.active ∧ 0 < pid then
    match map.newForOld pid with
    | some newPid => if 0 < newPid then newPid else pid
    | none => pid
  else pid

/-! ## The graveyard -/

variable {map : RespawnMap} {oldPid pid : Pid}

lemma eq_or_mem_of_mem_graveyardAdd (h : pid ∈ (map.graveyardAdd oldPid).graveyard) :
    pid = oldPid ∨ pid ∈ map.graveyard :=
  (mem_or_eq_of_mem_set h).symm

/-! ## Retiring a pair -/

lemma perm_withoutPair {pairs : List (Pid × Pid)} {index : Nat} {pair : Pid × Pid} (h : pairs[index]? = some pair) :
    (pair :: withoutPair pairs index).Perm pairs := by
  induction pairs using List.reverseRecOn with
  | nil => cases h
  | append_singleton init last _ =>
    have hlast : (init ++ [last]).getLast? = some last := getLast?_concat
    rw [withoutPair, hlast]
    simp only
    by_cases hindex : index < init.length
    · have hpair : init[index]? = some pair := by
        rw [getElem?_append_left hindex] at h
        exact h
      obtain ⟨hlt, rfl⟩ := List.getElem?_eq_some_iff.mp hpair
      rw [List.set_append_left _ _ hindex, dropLast_concat]
      -- the place of the pair has the last one now
      have hset : (init.set index last).Perm (last :: init.eraseIdx index) := by
        have hmoved := List.getElem_cons_eraseIdx_perm (l := init.set index last) (n := index) (by simpa using hindex)
        rw [List.getElem_set_self, eraseIdx_set_eq] at hmoved
        exact hmoved.symm
      calc (init[index] :: init.set index last).Perm (init[index] :: last :: init.eraseIdx index) := hset.cons _
        _ |>.Perm (last :: init[index] :: init.eraseIdx index) := List.Perm.swap ..
        _ |>.Perm (last :: init) := (List.getElem_cons_eraseIdx_perm hindex).cons _
        _ |>.Perm (init ++ [last]) := (perm_append_singleton last init).symm
    · have heq : index = init.length := by
        have hlt := (List.getElem?_eq_some_iff.mp h).1
        rw [length_append, length_singleton] at hlt
        omega
      subst heq
      rw [getElem?_concat_length] at h
      obtain rfl := Option.some.inj h
      rw [List.set_append_right _ _ le_rfl, Nat.sub_self, set_cons_zero, dropLast_concat]
      exact (perm_append_singleton last init).symm

/-- What retiring a replacement does: nothing, if it is none; otherwise its pair is gone and its original is buried. -/
lemma retireByNew_cases (map : RespawnMap) (newPid : Pid) :
    (map.retireByNew newPid = (none, map) ∧ ∀ pair ∈ map.pairs, pair.2 ≠ newPid) ∨
      ∃ pair, pair.2 = newPid ∧ (map.retireByNew newPid).1 = some pair.1 ∧ (pair :: (map.retireByNew newPid).2.pairs).Perm map.pairs ∧
        (map.retireByNew newPid).2.graveyard = (map.graveyardAdd pair.1).graveyard ∧ (map.retireByNew newPid).2.active = true := by
  rw [retireByNew]
  cases hindex : map.pairs.findIdx? fun pair => pair.2 = newPid with
  | none =>
    refine .inl ⟨rfl, fun pair hpair => ?_⟩
    simpa using findIdx?_eq_none_iff.mp hindex pair hpair
  | some index =>
    obtain ⟨hlt, hfound, -⟩ := findIdx?_eq_some_iff_getElem.mp hindex
    have hpair : map.pairs[index]? = some map.pairs[index] := getElem?_eq_getElem hlt
    simp only [hpair]
    exact .inr ⟨map.pairs[index], by simpa using hfound, rfl, perm_withoutPair hpair, rfl, rfl⟩

lemma isSuppressedOld_cases (map : RespawnMap) (pid : Pid) :
    (map.isSuppressedOld pid = (false, map) ∧ pid ∉ map.graveyard ∧ ∀ pair ∈ map.pairs, pair.1 ≠ pid) ∨
      (map.isSuppressedOld pid = (true, map) ∧ pid ∈ map.graveyard) ∨
      (map.isSuppressedOld pid = (true, map.graveyardAdd pid) ∧ ∃ pair ∈ map.pairs, pair.1 = pid) := by
  rw [isSuppressedOld]
  by_cases hburied : map.inGraveyard pid
  · rw [if_pos hburied]
    exact .inr (.inl ⟨rfl, by simpa [inGraveyard] using hburied⟩)
  rw [if_neg hburied]
  by_cases hmapped : map.pairs.any fun pair => pair.1 = pid
  · rw [if_pos hmapped]
    exact .inr (.inr ⟨rfl, by simpa using any_eq_true.mp hmapped⟩)
  rw [if_neg hmapped]
  refine .inl ⟨rfl, by simpa [inGraveyard] using hburied, fun pair hpair heq => ?_⟩
  exact hmapped (any_eq_true.mpr ⟨pair, hpair, by simpa using heq⟩)

lemma newForOld_eq_none_iff : map.newForOld pid = none ↔ ∀ pair ∈ map.pairs, pair.1 ≠ pid := by
  simp [newForOld]

lemma mem_of_newForOld {newPid : Pid} (h : map.newForOld oldPid = some newPid) : (oldPid, newPid) ∈ map.pairs := by
  obtain ⟨pair, hpair, rfl⟩ := map_eq_some_iff.mp h
  have hold : pair.1 = oldPid := by simpa using find?_some hpair
  rw [← hold]
  exact mem_of_find?_eq_some hpair

/-! ## The signal of a relaunch -/

/-- A child and the replacement that was spawned for it. -/
structure Relaunch where
  oldPid : Pid
  newPid : Pid
  oldPid_pos : 0 < oldPid
  newPid_pos : 0 < newPid

def recorded (map : RespawnMap) (relaunches : List Relaunch) : RespawnMap :=
  relaunches.foldl (fun map relaunch => map.record relaunch.oldPid relaunch.newPid) map

/-- The process that gets the SIGTERM of `pm_control_handle_respawn` after the spawn, if the child shows the target network. On an ELF build the
call is bound to the library's own `kill`, and the hook depth is 0 again. -/
def sigtermTarget (map : RespawnMap) (relaunch : Relaunch) : Pid :=
  (map.record relaunch.oldPid relaunch.newPid).killTarget 0 relaunch.oldPid

lemma newForOld_record (map : RespawnMap) (relaunch : Relaunch) :
    (map.record relaunch.oldPid relaunch.newPid).newForOld relaunch.oldPid =
      (map.newForOld relaunch.oldPid).or (if map.pairs.length < respawnMapMax then some relaunch.newPid else none) := by
  rw [record]
  split
  · simp only [newForOld, find?_append, find?_cons, decide_true, map_or, map_some]
  · simp

/-- A child in the pairs has made the library active, and replacements have pids. -/
structure Proper (map : RespawnMap) : Prop where
  active : map.pairs ≠ [] → map.active
  positive : ∀ pair ∈ map.pairs, 0 < pair.2

lemma proper_initial : initial.Proper := ⟨fun h => absurd rfl h, nofun⟩

lemma Proper.record (h : map.Proper) (relaunch : Relaunch) : (map.record relaunch.oldPid relaunch.newPid).Proper := by
  rw [RespawnMap.record]
  split
  · refine ⟨fun _ => rfl, ?_⟩
    simp only [forall_mem_append, forall_mem_singleton]
    exact ⟨h.positive, relaunch.newPid_pos⟩
  · exact h

lemma Proper.recorded (h : map.Proper) (relaunches : List Relaunch) : (map.recorded relaunches).Proper := by
  induction relaunches generalizing map with
  | nil => exact h
  | cons relaunch relaunches ih => exact ih (h.record relaunch)

lemma Proper.killTarget_eq (h : map.Proper) (hpid : 0 < pid) : map.killTarget 0 pid = (map.newForOld pid).getD pid := by
  rw [killTarget]
  cases hnew : map.newForOld pid with
  | none => simp
  | some newPid =>
    obtain ⟨pair, hpair, rfl⟩ := map_eq_some_iff.mp hnew
    have hmem := mem_of_find?_eq_some hpair
    have hactive := h.active (ne_nil_of_mem hmem)
    simp [hactive, hpid, h.positive pair hmem]

/-- After any relaunches, the signal of the next one reaches the original and not its replacement exactly if the original has no recorded
replacement even now, because there was no room for one, or a recorded replacement with its own pid. -/
theorem sigterm_reaches_original_iff (relaunches : List Relaunch) (relaunch : Relaunch) :
    (sigtermTarget (initial.recorded relaunches) relaunch = relaunch.oldPid ∧
        sigtermTarget (initial.recorded relaunches) relaunch ≠ relaunch.newPid) ↔
      relaunch.oldPid ≠ relaunch.newPid ∧
        ((initial.recorded relaunches).newForOld relaunch.oldPid = some relaunch.oldPid ∨
          ((initial.recorded relaunches).newForOld relaunch.oldPid = none ∧ (initial.recorded relaunches).pairs.length = respawnMapMax)) := by
  have hproper := (proper_initial.recorded relaunches).record relaunch
  have hlength := (initial.recorded relaunches).pairs_length
  generalize initial.recorded relaunches = map at hproper hlength ⊢
  rw [sigtermTarget, hproper.killTarget_eq relaunch.oldPid_pos, newForOld_record]
  cases hnew : map.newForOld relaunch.oldPid with
  | some newPid =>
    simp only [some_or, getD_some, Option.some.injEq, reduceCtorEq, false_and, or_false]
    constructor
    · rintro ⟨rfl, hne⟩
      exact ⟨hne, rfl⟩
    · rintro ⟨hne, rfl⟩
      exact ⟨rfl, hne⟩
  | none =>
    simp only [none_or, reduceCtorEq, true_and, false_or]
    by_cases hroom : map.pairs.length < respawnMapMax
    · rw [if_pos hroom, getD_some]
      refine iff_of_false (fun h => h.2 rfl) fun h => ?_
      exact absurd h.2 hroom.ne
    rw [if_neg hroom, getD_none]
    constructor
    · rintro ⟨-, hne⟩
      exact ⟨hne, le_antisymm hlength (not_lt.mp hroom)⟩
    · rintro ⟨hne, -⟩
      exact ⟨rfl, hne⟩

/-- The first relaunch signals the replacement. -/
theorem sigterm_hits_replacement : sigtermTarget initial ⟨100, 200, by decide, by decide⟩ = 200 := by decide +kernel

end RespawnMap

end PortManager.Hook
