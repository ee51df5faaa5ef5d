import PortManager.Node.RoutePaths

/-!
# The network label of a process tree

Embeds `core/process-network-labels.ts`. Terminal attachments label process trees with networks, and a
client is resolved by four tiers: its own pid, the pids of its ancestors, their process groups and their
terminals.

A tier whose attachments are of several networks gives no label, and the next tier is asked
(`strongest_tier_decides_iff`).
-/

namespace PortManager.Networks
open JsonText PortManager.Node List

inductive TerminalAttachmentStatus where
  | attached | detached | error
deriving DecidableEq

/-- The members of a `TerminalAttachment` that labels are read from. -/
structure LabelAttachment where
  networkId : List Nat
  rootPid : Int
  processGroupId : Option Int
  terminalWindowId : Option (List Nat)
  status : TerminalAttachmentStatus
deriving DecidableEq

structure ProcessNetworkLabelRow where
  pid : Int
  parentPid : Int
  processGroupId : Option Int
  terminalId : Option (List Nat)

inductive ProcessNetworkLabelSource where
  | directPid | ancestorPid | processGroup | terminal
deriving DecidableEq

structure ProcessNetworkLabelResolution where
  networkId : List Nat
  source : ProcessNetworkLabelSource
deriving DecidableEq

/-! ## The process and its ancestors -/

variable (rows : List ProcessNetworkLabelRow)

/-- `byPid.get`; a later row of a pid replaces an earlier one. -/
def rowOfPid (pid : Int) : Option ProcessNetworkLabelRow := rows.reverse.find? fun row => row.pid = pid

/-- The loop of `buildLabelProcessContext`. Each turn sees a pid of the table for the first time, so it takes
no more turns than the table has rows (`walkAncestors_of_le`). -/
def walkAncestors : Nat → ProcessNetworkLabelRow → List Int → List ProcessNetworkLabelRow
  | 0, _, _ => []
  | fuel + 1, cursor, seen =>
    if 0 < cursor.parentPid ∧ cursor.parentPid ∉ seen then
      match rowOfPid rows cursor.parentPid with
      | none => []
      | some parent => parent :: walkAncestors fuel parent (parent.pid :: seen)
    else []

/-- `buildLabelProcessContext`: the row of a process and those of its ancestors. -/
def buildLabelProcessContext (pid : Int) : Option (ProcessNetworkLabelRow × List ProcessNetworkLabelRow) :=
  (rowOfPid rows pid).map fun row => (row, walkAncestors rows rows.length row [pid])

def unseenRows (seen : List Int) : List ProcessNetworkLabelRow := rows.filter fun row => row.pid ∉ seen

variable {parent cursor : ProcessNetworkLabelRow} {seen : List Int} {fuel : Nat}

lemma length_unseenRows_lt (hrow : rowOfPid rows cursor.parentPid = some parent) (hseen : cursor.parentPid ∉ seen) :
    (unseenRows rows (parent.pid :: seen)).length < (unseenRows rows seen).length := by
  have hpid : parent.pid = cursor.parentPid := by simpa using find?_some hrow
  have hparent : parent ∈ rows := mem_reverse.mp (mem_of_find?_eq_some hrow)
  have hfilter : unseenRows rows (parent.pid :: seen) =
      (unseenRows rows seen).filter fun row => row.pid ≠ parent.pid := by
    rw [unseenRows, unseenRows, filter_filter]
    exact filter_congr fun row _ => by simp
  rw [hfilter, length_filter_lt_length_iff_exists]
  exact ⟨parent, mem_filter.mpr ⟨hparent, by simpa [hpid] using hseen⟩, by simp⟩

/-- More fuel than there are unseen rows changes nothing: the walk has ended. -/
lemma walkAncestors_of_le (h : (unseenRows rows seen).length ≤ fuel) :
    walkAncestors rows (fuel + 1) cursor seen = walkAncestors rows fuel cursor seen := by
  induction fuel generalizing cursor seen with
  | zero =>
    simp only [walkAncestors]
    split
    · next hcursor =>
      cases hrow : rowOfPid rows cursor.parentPid with
      | none => rfl
      | some parent =>
        have hlt := length_unseenRows_lt rows hrow hcursor.2
        omega
    · rfl
  | succ fuel ih =>
    rw [walkAncestors, walkAncestors]
    split
    · next hcursor =>
      cases hrow : rowOfPid rows cursor.parentPid with
      | none => rfl
      | some parent =>
        have hlt := length_unseenRows_lt rows hrow hcursor.2
        exact congrArg _ (ih (by omega))
    · rfl

/-! ## Tiers -/

def normalizeTerminalId (value : Option (List Nat)) : Option (List Nat) :=
  (value.map fun text =>
    if (codes "/dev/").isPrefixOf (trim text) then (trim text).drop 5 else trim text).filter
      fun terminal => terminal ≠ [] ∧ terminal ≠ [63]

def normalizeAttachmentTerminalId (attachment : LabelAttachment) : Option (List Nat) :=
  match attachment.terminalWindowId with
  | none => none
  | some window => if (codes "tty:").isPrefixOf window then normalizeTerminalId (some (window.drop 4)) else none

def networkIds (attachments : List LabelAttachment) : List (List Nat) := (attachments.map (·.networkId)).dedup

def uniqueLabelResolution (source : ProcessNetworkLabelSource) (attachments : List LabelAttachment) :
    Option ProcessNetworkLabelResolution :=
  match networkIds attachments with
  | [networkId] => some ⟨networkId, source⟩
  | _ => none

variable (attachments : List LabelAttachment) (pid : Int)

def activeAttachments : List LabelAttachment := attachments.filter fun attachment => attachment.status = .attached

def labelTiers : List (ProcessNetworkLabelSource × List LabelAttachment) :=
  let active := activeAttachments attachments
  (.directPid, active.filter fun attachment => attachment.rootPid = pid) ::
    match buildLabelProcessContext rows pid with
    | none => []
    | some (row, ancestorRows) =>
      let ancestorPids := ancestorRows.map (·.pid)
      let processGroupIds := (row :: ancestorRows).filterMap (·.processGroupId)
      let terminalIds := (row :: ancestorRows).filterMap fun row => normalizeTerminalId row.terminalId
      [(.ancestorPid, active.filter fun attachment => attachment.rootPid ∈ ancestorPids),
        (.processGroup, active.filter fun attachment => attachment.processGroupId.any (· ∈ processGroupIds)),
        (.terminal, active.filter fun attachment => (normalizeAttachmentTerminalId attachment).any (· ∈ terminalIds))]

/-- The tiers are asked until one gives a resolution. -/
def resolveProcessTreeNetworkLabel : Option ProcessNetworkLabelResolution :=
  (labelTiers rows attachments pid).findSome? fun tier => uniqueLabelResolution tier.1 tier.2

/-! ## The strongest tier -/

def strongestTier : Option (ProcessNetworkLabelSource × List LabelAttachment) :=
  (labelTiers rows attachments pid).find? fun tier => tier.2 ≠ []

variable {rows attachments pid} {source : ProcessNetworkLabelSource} {matched : List LabelAttachment}

lemma uniqueLabelResolution_eq_none_iff :
    uniqueLabelResolution source matched = none ↔ (networkIds matched).length ≠ 1 := by
  unfold uniqueLabelResolution
  split
  · next h => simp [h]
  · next h =>
    refine ⟨fun _ hone => ?_, fun _ => rfl⟩
    obtain ⟨networkId, hid⟩ := length_eq_one_iff.mp hone
    exact h networkId hid

lemma resolve_eq_none_iff : resolveProcessTreeNetworkLabel rows attachments pid = none ↔
    ∀ tier ∈ labelTiers rows attachments pid, (networkIds tier.2).length ≠ 1 := by
  rw [resolveProcessTreeNetworkLabel, findSome?_eq_none_iff]
  exact forall₂_congr fun _ _ => uniqueLabelResolution_eq_none_iff

/-- The strongest tier answers when its attachments are of one network: the tiers before it match nothing. -/
lemma resolve_of_one {networkId : List Nat} (h : strongestTier rows attachments pid = some (source, matched))
    (hone : networkIds matched = [networkId]) :
    resolveProcessTreeNetworkLabel rows attachments pid = some ⟨networkId, source⟩ := by
  obtain ⟨-, before, after, htiers, hbefore⟩ := find?_eq_some_iff_append.mp h
  have hnone : before.findSome? (fun tier => uniqueLabelResolution tier.1 tier.2) = none := by
    rw [findSome?_eq_none_iff]
    intro tier htier
    have hempty : tier.2 = [] := by simpa using hbefore tier htier
    rw [hempty]
    rfl
  rw [resolveProcessTreeNetworkLabel, htiers, findSome?_append, hnone, Option.none_or,
    findSome?_cons_of_isSome (by simp [uniqueLabelResolution, hone])]
  simp [uniqueLabelResolution, hone]

variable (rows attachments pid)

/-- The strongest tier that some attachment matches decides: several networks give no label and one network
gives that label. This is so exactly when no tier at all is of one network while the strongest is of several. -/
theorem strongest_tier_decides_iff :
    (∀ source matched, strongestTier rows attachments pid = some (source, matched) →
        (2 ≤ (networkIds matched).length → resolveProcessTreeNetworkLabel rows attachments pid = none) ∧
          ∀ networkId, networkIds matched = [networkId] →
            resolveProcessTreeNetworkLabel rows attachments pid = some ⟨networkId, source⟩) ↔
      ∀ source matched, strongestTier rows attachments pid = some (source, matched) →
        2 ≤ (networkIds matched).length →
          ∀ tier ∈ labelTiers rows attachments pid, (networkIds tier.2).length ≠ 1 := by
  constructor
  · intro h source matched hstrongest hmany
    exact resolve_eq_none_iff.mp ((h source matched hstrongest).1 hmany)
  intro h source matched hstrongest
  exact ⟨fun hmany => resolve_eq_none_iff.mpr (h source matched hstrongest hmany),
    fun networkId hone => resolve_of_one hstrongest hone⟩

/-- Process 20 attached to two networks and its parent, process 10, to a third one. -/
def attachedTwice : List LabelAttachment :=
  [⟨[97], 20, none, none, .attached⟩, ⟨[98], 20, none, none, .attached⟩, ⟨[99], 10, none, none, .attached⟩]

/-- The strongest tier is of two networks, and the attachment of the parent decides. -/
theorem ambiguous_pid_falls_through :
    strongestTier [⟨20, 10, none, none⟩, ⟨10, 1, none, none⟩] attachedTwice 20 =
        some (.directPid, attachedTwice.take 2) ∧
      resolveProcessTreeNetworkLabel [⟨20, 10, none, none⟩, ⟨10, 1, none, none⟩] attachedTwice 20 =
        some ⟨[99], .ancestorPid⟩ := by
  decide +kernel

end PortManager.Networks
