import PortManager.Base.Run
import PortManager.Networks.RegistryCalls

/-!
# Terminal attachments

One terminal belongs to one network. Two attachments share an identity when any of their terminal keys agree, which
is not a transitive relation: a new attachment can evict several others that have nothing in common. Whatever is
loaded and whatever happens afterwards, no two stored attachments share an identity, and a load keeps exactly the
attachments that are the latest of all they clash with (`attachments_hold_one_identity`).
-/

namespace PortManager.Networks
open JsonText PortManager.Node Run InsertionMap Eviction.Apart

lemma terminalAttachmentsShareIdentity_iff (left right : TerminalAttachment) :
    terminalAttachmentsShareIdentity left right = true ↔
      (left.terminalSessionId ≠ none ∧ left.terminalSessionId = right.terminalSessionId) ∨
      (left.terminalWindowId ≠ none ∧ left.terminalWindowId = right.terminalWindowId) ∨
      left.rootPid = right.rootPid ∨
      (left.processGroupId ≠ none ∧ left.processGroupId = right.processGroupId) := by
  unfold terminalAttachmentsShareIdentity
  split
  next h => exact iff_of_true rfl (.inl ⟨h.1, h.2.2⟩)
  next hsession =>
    have hnoSession : ¬ (left.terminalSessionId ≠ none ∧ left.terminalSessionId = right.terminalSessionId) :=
      fun h => hsession ⟨h.1, h.2 ▸ h.1, h.2⟩
    rw [or_iff_right hnoSession]
    split
    next h => exact iff_of_true rfl (.inl h)
    next hwindow =>
      rw [or_iff_right hwindow]
      split
      next h => exact iff_of_true rfl (.inl h)
      next hroot => rw [or_iff_right hroot, decide_eq_true_iff]

lemma terminalAttachmentsShareIdentity_comm (left right : TerminalAttachment) :
    terminalAttachmentsShareIdentity left right = terminalAttachmentsShareIdentity right left := by
  have hswap : ∀ left right, terminalAttachmentsShareIdentity left right = true →
      terminalAttachmentsShareIdentity right left = true := by
    intro left right
    rw [terminalAttachmentsShareIdentity_iff, terminalAttachmentsShareIdentity_iff]
    rintro (⟨hsome, heq⟩ | ⟨hsome, heq⟩ | heq | ⟨hsome, heq⟩)
    · exact .inl ⟨heq ▸ hsome, heq.symm⟩
    · exact .inr (.inl ⟨heq ▸ hsome, heq.symm⟩)
    · exact .inr (.inr (.inl heq.symm))
    · exact .inr (.inr (.inr ⟨heq ▸ hsome, heq.symm⟩))
  exact Bool.eq_iff_iff.mpr ⟨hswap left right, hswap right left⟩

namespace LogicalNetworkRegistry

variable {τ : Type} {dateParse : List Nat → Option Int}

def IdentitiesApart (registry : LogicalNetworkRegistry τ) : Prop :=
  Eviction.Apart terminalAttachmentsShareIdentity registry.attachments

lemma identitiesApart_filled (registry : LogicalNetworkRegistry τ) (state : LogicalNetworkRegistryState) :
    (registry.filled dateParse state).IdentitiesApart := by
  have hempty : Eviction.Apart terminalAttachmentsShareIdentity
      (InsertionMap.empty : InsertionMap (List Nat) TerminalAttachment) :=
    fun a ha => absurd ha List.not_mem_nil
  exact hempty.insertAll terminalAttachmentsShareIdentity_comm _

lemma IdentitiesApart.step [DecidableEq τ] {registry : LogicalNetworkRegistry τ} (hapart : registry.IdentitiesApart)
    (operation : RegistryOperation τ) : (registry.step dateParse operation).IdentitiesApart := by
  have hchange := step_change dateParse registry operation
  generalize registry.step dateParse operation = result at hchange
  cases hchange with
  | addAttachment attachment => exact insert terminalAttachmentsShareIdentity_comm hapart attachment
  | removeAttachment attachmentId =>
    exact subset hapart fun entry hentry => (mem_delete.mp hentry).1
  | removeNetwork networkId =>
    exact subset hapart fun entry hentry => (mem_filter.mp hentry).1
  | replacePersistedState state => exact identitiesApart_filled registry state
  | _ => exact hapart

def LatestAttachment (dateParse : List Nat → Option Int) (attachments : List TerminalAttachment)
    (attachment : TerminalAttachment) : Prop :=
  Eviction.Latest (fun other => parseAttachmentTime dateParse other.attachedAt)
    (fun other => other.id = attachment.id ∨ terminalAttachmentsShareIdentity attachment other = true)
    attachments attachment

lemma mem_loadAttachments {attachments : List TerminalAttachment} {attachment : TerminalAttachment} :
    attachment ∈ (loadAttachments dateParse attachments).values ↔ LatestAttachment dateParse attachments attachment := by
  rw [LatestAttachment, ← Eviction.survives_insertionSort]
  constructor
  · intro hvalue
    obtain ⟨entry, hentry, rfl⟩ := List.mem_map.mp hvalue
    rcases (Eviction.mem_insertAll _).mp hentry with ⟨hold, -⟩ | ⟨-, hsurvives⟩
    · cases hold
    · exact hsurvives
  · intro hsurvives
    have hentry : (attachment.id, attachment) ∈ (loadAttachments dateParse attachments).entries :=
      (Eviction.mem_insertAll _).mpr (.inr ⟨rfl, hsurvives⟩)
    exact List.mem_map.mpr ⟨_, hentry, rfl⟩

/-- After any document and any operations no two stored attachments share an identity, and after every load that is
accepted, by the constructor or later, the stored attachments are the latest of the document. -/
theorem attachments_hold_one_identity [DecidableEq τ] (dateParse : List Nat → Option Int) (transient : τ)
    (state : LogicalNetworkRegistryState) (operations : List (RegistryOperation τ)) :
    (∀ a ∈ (run (step dateParse) (constructed dateParse transient state) operations).attachments.entries,
      ∀ b ∈ (run (step dateParse) (constructed dateParse transient state) operations).attachments.entries,
      a ≠ b → terminalAttachmentsShareIdentity a.2 b.2 = false) ∧
    (rejects (construct dateParse state) (empty transient) = false → ∀ attachment,
      attachment ∈ (constructed dateParse transient state).attachments.values ↔
        LatestAttachment dateParse state.attachments attachment) ∧
    (∀ loaded, rejects (replacePersistedState dateParse loaded)
        (run (step dateParse) (constructed dateParse transient state) operations) = false → ∀ attachment,
      attachment ∈ (after (replacePersistedState dateParse loaded)
        (run (step dateParse) (constructed dateParse transient state) operations)).attachments.values ↔
        LatestAttachment dateParse loaded.attachments attachment) := by
  refine ⟨fun a ha b hb hne => ?_, fun haccepts attachment => ?_, fun loaded haccepts attachment => ?_⟩
  · have hapart : (run (step dateParse) (constructed dateParse transient state) operations).IdentitiesApart := by
      refine run_keeps (fun registry operation h => h.step operation) ?_ operations
      exact constructed_induction (fun a ha => absurd ha List.not_mem_nil) fun _ _ => identitiesApart_filled _ state
    refine hapart a ha b hb fun hkey => hne ?_
    exact Prod.ext hkey (value_unique ha (hkey ▸ hb))
  · rw [constructed, ((construct_ends dateParse _ state).accepted haccepts).2]
    exact mem_loadAttachments
  · rw [((replacePersistedState_ends dateParse _ loaded).accepted haccepts).2]
    exact mem_loadAttachments

end LogicalNetworkRegistry

end PortManager.Networks
