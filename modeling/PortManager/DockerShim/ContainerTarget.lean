import PortManager.Base.CText

/-!
# The container of a token

Embeds the search of the Docker shim for the container that a token on the command line means: `pm_container_target_scan_file`,
run over the routing files. The scan keeps the last target, its priority and a counter; the target counts only if the counter is 1.
The files and their rows may come in any order (`container_target_iff`).
-/

namespace PortManager.DockerShim
open CText List

/-- A row of the kind `container` as `pm_parse_route_row` reads it, attached to a container with a name or an id. -/
structure ContainerRow where
  networkId : Text
  runtime : Text
  originalId : Text
  originalName : Text
  attachedId : Text
  attachedName : Text
  serviceName : Text
  attached : attachedName ≠ [] ∨ attachedId ≠ []

/-- What the scan looks for; the suffix is that of `container:path`. -/
structure TargetQuery where
  runtime : Text
  networkId : Text
  token : Text
  suffix : Text
  requireContext : Bool

structure TargetSearch where
  contextFiles : Nat
  matchCount : Nat
  targetPriority : Nat
  target : Text

/-- A routing file: whether its time is over, whether it is of the context of the command, and its rows if it can be opened. -/
structure RoutingFile where
  expired : Bool
  matchesContext : Bool
  rows : Option (List ContainerRow)

def isContainerIdText (value : Text) : Bool := value ≠ [] && value.all fun c => (48 ≤ c && c ≤ 57) || (97 ≤ c && c ≤ 102)

def containerIdsSharePrefix (token rowId : Text) : Bool :=
  isContainerIdText token && isContainerIdText rowId && (token.isPrefixOf rowId || rowId.isPrefixOf token)

def ContainerRow.priority (row : ContainerRow) : Nat :=
  if (ascii "__portmanager_alias__:").isPrefixOf row.serviceName then 3 else 1

/-- The end of the body of the loop, for a row that matches. -/
def TargetSearch.note (search : TargetSearch) (nextPriority : Nat) (nextTarget : Text) : TargetSearch :=
  if search.target ≠ [] ∧ search.targetPriority < nextPriority then
    { search with matchCount := 1, targetPriority := nextPriority, target := nextTarget }
  else if search.target ≠ [] ∧ nextPriority < search.targetPriority then search
  else if search.target ≠ [] ∧ search.target = nextTarget then search
  else { search with matchCount := search.matchCount + 1, targetPriority := nextPriority, target := nextTarget }

namespace TargetQuery

variable (query : TargetQuery)

def matched (row : ContainerRow) : Bool :=
  row.networkId = query.networkId && row.runtime = query.runtime &&
    (query.token = row.originalName || query.token = row.attachedName || query.token = row.serviceName ||
      (4 ≤ query.token.length &&
        (containerIdsSharePrefix query.token row.originalId || containerIdsSharePrefix query.token row.attachedId)))

def target (row : ContainerRow) : Text :=
  truncate 4096 ((if row.attachedName = [] then row.attachedId else row.attachedName) ++ query.suffix)

def scanRow (search : TargetSearch) (row : ContainerRow) : TargetSearch :=
  if query.matched row then search.note row.priority (query.target row) else search

def reads (file : RoutingFile) : Bool := !file.expired && (!query.requireContext || file.matchesContext)

/-- `pm_container_target_scan_file`. -/
def scanFile (search : TargetSearch) (file : RoutingFile) : TargetSearch :=
  if query.reads file then
    (file.rows.getD []).foldl query.scanRow { search with contextFiles := search.contextFiles + query.requireContext.toNat }
  else search

def scan (files : List RoutingFile) : TargetSearch := files.foldl query.scanFile ⟨0, 0, 0, []⟩

/-- The rows of the files that are read. -/
def scannedRows (files : List RoutingFile) : List ContainerRow :=
  (files.filter query.reads).flatMap fun file => file.rows.getD []

/-- Priority and target of the rows that match. -/
def hits (rows : List ContainerRow) : List (Nat × Text) :=
  (rows.filter query.matched).map fun row => (row.priority, query.target row)

/-- The targets of the matching rows of the highest priority. -/
def topTargets (rows : List ContainerRow) : List Text :=
  ((query.hits rows).filter fun hit => (query.hits rows).all fun other => other.1 ≤ hit.1).map Prod.snd

end TargetQuery

/-! ## What the scan knows -/

namespace TargetSearch

/-- The priority and the target are those of a row, no row has a higher priority, and the counter is 1 as long as all rows of this
priority have this target. -/
structure Leads (hits : List (Nat × Text)) (search : TargetSearch) : Prop where
  target : search.target ≠ []
  found : (search.targetPriority, search.target) ∈ hits
  highest : ∀ hit ∈ hits, hit.1 ≤ search.targetPriority
  positive : 0 < search.matchCount
  single : search.matchCount = 1 ↔ ∀ hit ∈ hits, hit.1 = search.targetPriority → hit.2 = search.target

/-- No row has matched, or the search knows the rows of the highest priority. -/
def Summary (hits : List (Nat × Text)) (search : TargetSearch) : Prop :=
  hits = [] ∧ search.matchCount = 0 ∧ search.target = [] ∨ search.Leads hits

variable {hits : List (Nat × Text)} {search : TargetSearch}

lemma Summary.note (h : search.Summary hits) {nextTarget : Text} (hne : nextTarget ≠ []) (nextPriority : Nat) :
    (search.note nextPriority nextTarget).Summary (hits ++ [(nextPriority, nextTarget)]) := by
  refine .inr ?_
  unfold TargetSearch.note
  rcases h with ⟨rfl, hzero, hempty⟩ | h
  · simp only [hempty]
    exact ⟨hne, by simp, by simp, by simp, by simp [hzero]⟩
  have htarget := h.target
  simp only [htarget, ne_eq, not_false_eq_true, true_and]
  have hfound := mem_append_left [(nextPriority, nextTarget)] h.found
  split_ifs with hhigher hlower hsame
  · -- the rows so far do not count any more
    have hless : ∀ hit ∈ hits, hit.1 < nextPriority := fun hit hhit => (h.highest hit hhit).trans_lt hhigher
    refine ⟨hne, by simp, ?_, one_pos, iff_of_true rfl ?_⟩ <;> rw [forall_mem_append, forall_mem_singleton]
    · exact ⟨fun hit hhit => (hless hit hhit).le, le_refl _⟩
    · exact ⟨fun hit hhit heq => absurd heq (hless hit hhit).ne, fun _ => rfl⟩
  · refine ⟨htarget, hfound, ?_, h.positive, h.single.trans ?_⟩ <;> rw [forall_mem_append, forall_mem_singleton]
    · exact ⟨h.highest, hlower.le⟩
    · exact (and_iff_left fun heq => absurd heq hlower.ne).symm
  · have heq : nextPriority = search.targetPriority := by omega
    refine ⟨htarget, hfound, ?_, h.positive, h.single.trans ?_⟩ <;> rw [forall_mem_append, forall_mem_singleton]
    · exact ⟨h.highest, heq.le⟩
    · exact (and_iff_left fun _ => hsame.symm).symm
  have heq : nextPriority = search.targetPriority := by omega
  refine ⟨hne, by simp, ?_, Nat.succ_pos _, iff_of_false ?_ fun hall => hsame ?_⟩
  · rw [forall_mem_append, forall_mem_singleton]
    exact ⟨fun hit hhit => heq ▸ h.highest hit hhit, le_refl _⟩
  · have hpositive := h.positive
    simp only
    omega
  · exact hall _ hfound heq.symm

variable {query : TargetQuery} {before : List ContainerRow} (h : search.Summary (query.hits before))
include h

lemma Summary.rows (rows : List ContainerRow) : (rows.foldl query.scanRow search).Summary (query.hits (before ++ rows)) := by
  induction rows generalizing before search with
  | nil => rwa [append_nil]
  | cons row rows ih =>
    rw [append_cons]
    refine ih ?_
    unfold TargetQuery.scanRow
    split
    next hmatched =>
      have hname : (if row.attachedName = [] then row.attachedId else row.attachedName) ≠ [] := by
        split
        next hempty => exact row.attached.resolve_left (not_not.mpr hempty)
        next hname => exact hname
      have hhits : query.hits (before ++ [row]) = query.hits before ++ [(row.priority, query.target row)] := by
        simp [TargetQuery.hits, hmatched]
      rw [hhits]
      exact h.note (by simp [TargetQuery.target, truncate, hname]) _
    next hother =>
      have hhits : query.hits (before ++ [row]) = query.hits before := by simp [TargetQuery.hits, hother]
      rwa [hhits]

lemma Summary.files (files : List RoutingFile) :
    (files.foldl query.scanFile search).Summary (query.hits (before ++ query.scannedRows files)) := by
  induction files generalizing before search with
  | nil => rwa [TargetQuery.scannedRows, filter_nil, flatMap_nil, append_nil]
  | cons file files ih =>
    rw [foldl_cons, TargetQuery.scanFile, TargetQuery.scannedRows]
    split
    next hreads =>
      rw [filter_cons_of_pos hreads, flatMap_cons, ← append_assoc]
      refine ih (Summary.rows ?_ _)
      rcases h with hnone | hleads
      · exact .inl hnone
      · exact .inr { hleads with }
    next hskips =>
      rw [filter_cons_of_neg hskips]
      exact ih h

omit h

lemma Summary.single_iff (rows : List ContainerRow) (h : search.Summary (query.hits rows)) (target : Text) :
    search.matchCount = 1 ∧ search.target = target ↔ (query.topTargets rows).toFinset = {target} := by
  have hmem : ∀ target, target ∈ (query.topTargets rows).toFinset ↔
      ∃ hit ∈ query.hits rows, (∀ other ∈ query.hits rows, other.1 ≤ hit.1) ∧ hit.2 = target := by
    simp [TargetQuery.topTargets, and_assoc]
  rw [Finset.eq_singleton_iff_unique_mem]
  simp only [hmem]
  rcases h with ⟨hnone, hzero, -⟩ | h
  · simp [hnone, hzero]
  have htop : ∀ hit ∈ query.hits rows, (∀ other ∈ query.hits rows, other.1 ≤ hit.1) ↔ hit.1 = search.targetPriority :=
    fun hit hhit => ⟨fun hall => le_antisymm (h.highest hit hhit) (hall _ h.found), fun heq => heq ▸ h.highest⟩
  constructor
  · rintro ⟨hone, rfl⟩
    refine ⟨⟨_, h.found, h.highest, rfl⟩, ?_⟩
    rintro other ⟨hit, hhit, hhighest, rfl⟩
    exact h.single.mp hone hit hhit ((htop hit hhit).mp hhighest)
  · rintro ⟨-, hunique⟩
    have htarget : search.target = target := hunique _ ⟨_, h.found, h.highest, rfl⟩
    refine ⟨h.single.mpr fun hit hhit heq => ?_, htarget⟩
    rw [htarget]
    exact hunique _ ⟨hit, hhit, (htop hit hhit).mpr heq, rfl⟩

end TargetSearch

/-- The scan ends with the counter at 1 and a target exactly when this is the only target of the matching rows of the highest
priority; so the order of the rows and how they are spread over the files make no difference. -/
theorem container_target_iff (query : TargetQuery) (files : List RoutingFile) (target : Text) :
    ((query.scan files).matchCount = 1 ∧ (query.scan files).target = target ↔
      (query.topTargets (query.scannedRows files)).toFinset = {target}) ∧
    ∀ reordered, (query.scannedRows reordered).Perm (query.scannedRows files) →
      ((query.scan reordered).matchCount = 1 ∧ (query.scan reordered).target = target ↔
        (query.scan files).matchCount = 1 ∧ (query.scan files).target = target) := by
  have hscan (files : List RoutingFile) : (query.scan files).matchCount = 1 ∧ (query.scan files).target = target ↔
      (query.topTargets (query.scannedRows files)).toFinset = {target} := by
    have hsummary : (query.scan files).Summary (query.hits ([] ++ query.scannedRows files)) :=
      TargetSearch.Summary.files (.inl ⟨rfl, rfl, rfl⟩) files
    exact hsummary.single_iff _ target
  refine ⟨hscan files, fun reordered hperm => ?_⟩
  have hhits : (query.hits (query.scannedRows reordered)).Perm (query.hits (query.scannedRows files)) :=
    (hperm.filter _).map _
  have htop : (query.topTargets (query.scannedRows reordered)).toFinset = (query.topTargets (query.scannedRows files)).toFinset := by
    ext target
    simp [TargetQuery.topTargets, hhits.mem_iff]
  rw [hscan, hscan, htop]

end PortManager.DockerShim
