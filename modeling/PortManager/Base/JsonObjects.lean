import PortManager.Base.InsertionMap
import PortManager.Base.JsonText

/-!
# Objects with repeated names

A program that stores the members of an object as they are read keeps one value for each name: the last one, in the
place of the first. This loses members exactly when it changes the value (`settled_count`).
-/

namespace JsonText
open List Json InsertionMap

variable (members : List (List Nat × Json))

def storeMembers : InsertionMap (List Nat) Json :=
  members.foldl (fun stored member => stored.set member.1 member.2) .empty

mutual

def Json.settled : Json → Json
  | .null => .null
  | .bool value => .bool value
  | .number literal => .number literal
  | .string raw => .string raw
  | .array items => .array (settledItems items)
  | .object members => .object (storeMembers (settledMembers members)).entries
termination_by structural json => json

def Json.settledItems : List Json → List Json
  | [] => []
  | json :: items => json.settled :: settledItems items
termination_by structural items => items

def Json.settledMembers : List (List Nat × Json) → List (List Nat × Json)
  | [] => []
  | member :: members => settledMember member :: settledMembers members
termination_by structural members => members

def Json.settledMember : List Nat × Json → List Nat × Json
  | (name, json) => (name, json.settled)
termination_by structural member => member

end

mutual

def Json.memberCount : Json → Nat
  | .array items => memberCountItems items
  | .object members => memberCountMembers members
  | _ => 0
termination_by structural json => json

def Json.memberCountItems : List Json → Nat
  | [] => 0
  | json :: items => json.memberCount + memberCountItems items
termination_by structural items => items

def Json.memberCountMembers : List (List Nat × Json) → Nat
  | [] => 0
  | member :: members => memberCountMember member + memberCountMembers members
termination_by structural members => members

def Json.memberCountMember : List Nat × Json → Nat
  | (_, json) => json.memberCount + 1
termination_by structural member => member

end

lemma memberCountMembers_append (first second : List (List Nat × Json)) :
    memberCountMembers (first ++ second) = memberCountMembers first + memberCountMembers second := by
  induction first with
  | nil => rw [nil_append, memberCountMembers, zero_add]
  | cons member first ih => rw [cons_append, memberCountMembers, memberCountMembers, ih, add_assoc]

lemma memberCount_set (stored : InsertionMap (List Nat) Json) (name : List Nat) (json : Json) :
    memberCountMembers (stored.set name json).entries ≤
        memberCountMembers stored.entries + memberCountMember (name, json) ∧
      (memberCountMembers (stored.set name json).entries =
        memberCountMembers stored.entries + memberCountMember (name, json) →
        (stored.set name json).entries = stored.entries ++ [(name, json)]) := by
  have hsingle : ∀ member, memberCountMembers [member] = memberCountMember member := by
    intro member
    rw [memberCountMembers, memberCountMembers, add_zero]
  by_cases hknown : name ∈ stored.keys
  · obtain ⟨old, hentry⟩ := mem_keys_iff.mp hknown
    obtain ⟨before, after, hsplit⟩ := append_of_mem hentry
    have hset := entries_set_of_split hsplit json
    have hpositive : 1 ≤ memberCountMember (name, old) := Nat.le_add_left 1 _
    rw [hset, hsplit, memberCountMembers_append, memberCountMembers_append, memberCountMembers,
      memberCountMembers]
    exact ⟨by omega, fun h => by omega⟩
  · rw [entries_set_of_not_mem hknown, memberCountMembers_append, hsingle]
    exact ⟨le_rfl, fun _ => rfl⟩

lemma memberCount_foldl (stored : InsertionMap (List Nat) Json) :
    memberCountMembers (members.foldl (fun stored member => stored.set member.1 member.2) stored).entries ≤
        memberCountMembers stored.entries + memberCountMembers members ∧
      (memberCountMembers (members.foldl (fun stored member => stored.set member.1 member.2) stored).entries =
        memberCountMembers stored.entries + memberCountMembers members →
        (members.foldl (fun stored member => stored.set member.1 member.2) stored).entries =
          stored.entries ++ members) := by
  induction members generalizing stored with
  | nil => exact ⟨le_rfl, fun _ => (append_nil _).symm⟩
  | cons member members ih =>
    obtain ⟨name, json⟩ := member
    obtain ⟨hle, heq⟩ := memberCount_set stored name json
    obtain ⟨hle', heq'⟩ := ih (stored.set name json)
    rw [foldl_cons, memberCountMembers]
    dsimp only
    refine ⟨by omega, fun h => ?_⟩
    rw [heq' (by omega), heq (by omega), append_assoc]
    rfl

lemma memberCount_storeMembers :
    memberCountMembers (storeMembers members).entries ≤ memberCountMembers members ∧
      (memberCountMembers (storeMembers members).entries = memberCountMembers members →
        (storeMembers members).entries = members) := by
  have hfold := memberCount_foldl members .empty
  have hempty : memberCountMembers (empty : InsertionMap (List Nat) Json).entries = 0 := rfl
  rw [hempty, zero_add] at hfold
  exact hfold

mutual

lemma settled_count : ∀ json : Json, json.settled.memberCount ≤ json.memberCount ∧
    (json.settled.memberCount = json.memberCount → json.settled = json)
  | .null => ⟨le_rfl, fun _ => rfl⟩
  | .bool _ => ⟨le_rfl, fun _ => rfl⟩
  | .number _ => ⟨le_rfl, fun _ => rfl⟩
  | .string _ => ⟨le_rfl, fun _ => rfl⟩
  | .array items =>
    ⟨(settledItems_count items).1, fun h => congrArg array ((settledItems_count items).2 h)⟩
  | .object members => by
    obtain ⟨hle, heq⟩ := settledMembers_count members
    obtain ⟨hle', heq'⟩ := memberCount_storeMembers (settledMembers members)
    refine ⟨hle'.trans hle, fun h => ?_⟩
    change memberCountMembers (storeMembers (settledMembers members)).entries =
      memberCountMembers members at h
    rw [settled, heq' (by omega), heq (by omega)]
termination_by structural json => json

lemma settledItems_count : ∀ items : List Json,
    memberCountItems (settledItems items) ≤ memberCountItems items ∧
      (memberCountItems (settledItems items) = memberCountItems items → settledItems items = items)
  | [] => ⟨le_rfl, fun _ => rfl⟩
  | json :: items => by
    obtain ⟨hle, heq⟩ := settled_count json
    obtain ⟨hle', heq'⟩ := settledItems_count items
    rw [settledItems, memberCountItems, memberCountItems]
    exact ⟨by omega, fun h => by rw [heq (by omega), heq' (by omega)]⟩
termination_by structural items => items

lemma settledMembers_count : ∀ members : List (List Nat × Json),
    memberCountMembers (settledMembers members) ≤ memberCountMembers members ∧
      (memberCountMembers (settledMembers members) = memberCountMembers members →
        settledMembers members = members)
  | [] => ⟨le_rfl, fun _ => rfl⟩
  | member :: members => by
    obtain ⟨hle, heq⟩ := settledMember_count member
    obtain ⟨hle', heq'⟩ := settledMembers_count members
    rw [settledMembers, memberCountMembers, memberCountMembers]
    exact ⟨by omega, fun h => by rw [heq (by omega), heq' (by omega)]⟩
termination_by structural members => members

lemma settledMember_count : ∀ member : List Nat × Json,
    memberCountMember (settledMember member) ≤ memberCountMember member ∧
      (memberCountMember (settledMember member) = memberCountMember member →
        settledMember member = member)
  | (name, json) => by
    obtain ⟨hle, heq⟩ := settled_count json
    rw [settledMember, memberCountMember, memberCountMember]
    exact ⟨by omega, fun h => by rw [heq (by omega)]⟩
termination_by structural member => member

end

end JsonText
