import PortManager.Base.CText

/-!
# The Compose project of a directory

Embeds the search of `portmanager_docker_shim.c` for the attached Compose project: `pm_find_compose_route_in_file` over the scoped
routing files, `pm_cwd_matches_workdir`, `pm_path_contains_or_equals`, and the choice that `pm_find_compose_route` makes from
what the scan has found. The rows are as `pm_parse_route_row` reads them. The environment, the file system and the arguments
of the command are in `Invocation`.

Among the rows that match, the last one with the longest directory is taken (`scan_spec`), so whatever row is among the longest wins
in some order (`wins_iff_greatest`). A directory below the current one is longer than the current one: its row beats the
row of the current directory.
-/

namespace PortManager.DockerShim

open CText List

inductive RowKind where
  | project
  | file
  | other
deriving DecidableEq

structure RouteRow where
  kind : RowKind
  networkId : Text
  runtime : Text
  workdir : Text
  projectOrOriginalId : Text
  originalName : Text
  overrideFile : Text
deriving DecidableEq

structure Invocation where
  runtime : Text
  networkId : Text
  requestedProject : Text
  pwd : Option Text
  cwd : Option Text
  realpath : Text → Option Text
  argvReferencesComposeFile : Text → Bool
  composeProjectNameFromDirectory : Text → Text

def pathContainsOrEquals (candidate root : Text) : Bool :=
  candidate ≠ [] && root ≠ [] &&
    (candidate = root ||
      (root.isPrefixOf candidate && (root.getLast? = some 47 || candidate[root.length]? = some 47)))

def pathsNest (first second : Text) : Bool := pathContainsOrEquals first second || pathContainsOrEquals second first

/-- What the scan has found: the row whose fields were copied last, and the rows that match by name. -/
structure ComposeRouteSearch where
  bestLength : Nat
  context : Option RouteRow
  projectMatchCount : Nat
  projectMatch : Option RouteRow

namespace Invocation

variable (invocation : Invocation)

def cwdMatchesWorkdir (workdir : Text) : Bool :=
  workdir ≠ [] &&
    (invocation.pwd.any (pathsNest · workdir) ||
      invocation.cwd.any fun cwd => pathsNest cwd workdir || (invocation.realpath workdir).any (pathsNest cwd))

variable (row : RouteRow)

def concerns : Bool := row.networkId = invocation.networkId && row.runtime = invocation.runtime

/-- `row_matches` -/
def rowMatches : Bool :=
  match row.kind with
  | .project => invocation.cwdMatchesWorkdir row.workdir
  | .file => invocation.argvReferencesComposeFile row.workdir
  | .other => false

def rowOriginalProject : Text :=
  if row.kind = .project ∧ row.originalName = [] then invocation.composeProjectNameFromDirectory row.workdir
  else row.originalName

def rowIsRequested : Bool :=
  row.kind = .project && invocation.requestedProject ≠ [] &&
    (invocation.requestedProject = invocation.rowOriginalProject row ||
      invocation.requestedProject = row.projectOrOriginalId)

def scanRow (search : ComposeRouteSearch) (row : RouteRow) : ComposeRouteSearch :=
  if invocation.concerns row = false then search
  else if invocation.rowMatches row ∧ search.bestLength ≤ row.workdir.length then
    { search with bestLength := row.workdir.length, context := some row }
  else if invocation.rowIsRequested row then
    { search with projectMatchCount := search.projectMatchCount + 1, projectMatch := some row }
  else search

/-- `pm_find_compose_route_in_file`. -/
def scanFile (search : ComposeRouteSearch) (rows : List RouteRow) : ComposeRouteSearch :=
  rows.foldl invocation.scanRow search

def scan (files : List (List RouteRow)) : ComposeRouteSearch := files.foldl invocation.scanFile ⟨0, none, 0, none⟩

/-- A project that is named counts when it is not empty. -/
def named (row : Option RouteRow) : Option Text := (row.map (·.projectOrOriginalId)).filter (· ≠ [])

/-- The attached project: the only row that matches by name where none matches by context, else the row of the context. -/
def selected (files : List (List RouteRow)) : Option Text :=
  let search := invocation.scan files
  if search.context = none ∧ search.projectMatchCount = 1 then named search.projectMatch else named search.context

/-! ## What the scan finds -/

def IsCandidate : Prop := invocation.concerns row = true ∧ invocation.rowMatches row = true

/-- A matching row that no matching row exceeds. -/
structure Greatest (rows : List RouteRow) (row : RouteRow) : Prop where
  mem : row ∈ rows
  candidate : invocation.IsCandidate row
  longest : ∀ other ∈ rows, invocation.IsCandidate other → other.workdir.length ≤ row.workdir.length

/-- The rows that count by name where none matches by context. -/
def requestedRows (rows : List RouteRow) : List RouteRow :=
  rows.filter fun row => invocation.concerns row && invocation.rowIsRequested row

variable {invocation} {rows : List RouteRow} {row : RouteRow} {files files' : List (List RouteRow)}

lemma scan_eq : invocation.scan files = files.flatten.foldl invocation.scanRow ⟨0, none, 0, none⟩ :=
  foldl_flatten.symm

/-- After some rows: either none matches and the rows with the name are counted, or a greatest row is in the context. -/
structure Scanned (invocation : Invocation) (rows : List RouteRow) (search : ComposeRouteSearch) : Prop where
  unmatched : search.context = none → search.bestLength = 0 ∧ (∀ row ∈ rows, ¬invocation.IsCandidate row) ∧
    search.projectMatchCount = (invocation.requestedRows rows).length ∧
    search.projectMatch = (invocation.requestedRows rows).getLast?
  matched : ∀ row, search.context = some row → invocation.Greatest rows row ∧ search.bestLength = row.workdir.length

lemma requestedRows_concat :
    invocation.requestedRows (rows ++ [row]) =
      invocation.requestedRows rows ++
        if invocation.concerns row && invocation.rowIsRequested row then [row] else [] := by
  rw [requestedRows, filter_append, filter_singleton, Bool.cond_eq_ite]
  rfl

lemma Greatest.concat {best : RouteRow} (h : invocation.Greatest rows best)
    (hrow : invocation.IsCandidate row → row.workdir.length ≤ best.workdir.length) :
    invocation.Greatest (rows ++ [row]) best := by
  refine ⟨mem_append_left _ h.mem, h.candidate, fun other hother hcandidate => ?_⟩
  rcases mem_append.mp hother with hother | hother
  · exact h.longest other hother hcandidate
  · rw [mem_singleton.mp hother] at hcandidate ⊢
    exact hrow hcandidate

lemma Scanned.keep {search next : ComposeRouteSearch} (h : Scanned invocation rows search)
    (hrow : invocation.IsCandidate row → row.workdir.length < search.bestLength)
    (hcontext : next.context = search.context) (hlength : next.bestLength = search.bestLength)
    (hcounts : search.context = none →
      next.projectMatchCount = (invocation.requestedRows (rows ++ [row])).length ∧
        next.projectMatch = (invocation.requestedRows (rows ++ [row])).getLast?) :
    Scanned invocation (rows ++ [row]) next := by
  refine ⟨fun hnone => ?_, fun best hbest => ?_⟩
  · rw [hcontext] at hnone
    obtain ⟨hzero, hrows, -, -⟩ := h.unmatched hnone
    refine ⟨hlength.trans hzero, fun other hother hcandidate => ?_, hcounts hnone⟩
    rcases mem_append.mp hother with hother | hother
    · exact hrows other hother hcandidate
    rw [mem_singleton.mp hother] at hcandidate
    have hshort := hrow hcandidate
    omega
  · rw [hcontext] at hbest
    obtain ⟨hgreatest, hbestLength⟩ := h.matched best hbest
    refine ⟨hgreatest.concat fun hcandidate => ?_, hlength.trans hbestLength⟩
    have hshort := hrow hcandidate
    omega

lemma Scanned.scanRow {search : ComposeRouteSearch} (h : Scanned invocation rows search) :
    Scanned invocation (rows ++ [row]) (invocation.scanRow search row) := by
  unfold Invocation.scanRow
  split
  next hconcerns =>
    refine h.keep (fun hcandidate => ?_) rfl rfl fun hnone => ?_
    · rw [hcandidate.1] at hconcerns
      cases hconcerns
    · obtain ⟨-, -, hcount, hlast⟩ := h.unmatched hnone
      simp [requestedRows_concat, hconcerns, hcount, hlast]
  next hconcerns =>
    rw [Bool.not_eq_false] at hconcerns
    split
    next hmatch =>
      refine ⟨fun hnone => ?_, fun best hbest => ?_⟩
      · cases hnone
      cases hbest
      refine ⟨⟨mem_append_right _ (mem_singleton_self row), ⟨hconcerns, hmatch.1⟩,
        fun other hother hcandidate => ?_⟩, rfl⟩
      rcases mem_append.mp hother with hother | hother
      · cases hcontext : search.context with
        | none => exact absurd hcandidate ((h.unmatched hcontext).2.1 other hother)
        | some best =>
          -- the row is at least as long as the best one before it
          obtain ⟨hgreatest, hlength⟩ := h.matched best hcontext
          exact (hgreatest.longest other hother hcandidate).trans (hlength ▸ hmatch.2)
      · exact mem_singleton.mp hother ▸ le_refl _
    next hmatch =>
      have hshort : invocation.IsCandidate row → row.workdir.length < search.bestLength := by
        intro hcandidate
        rw [← not_le]
        exact fun hle => hmatch ⟨hcandidate.2, hle⟩
      split
      next hrequested =>
        refine h.keep hshort rfl rfl fun hnone => ?_
        obtain ⟨-, -, hcount, -⟩ := h.unmatched hnone
        simp [requestedRows_concat, hconcerns, hrequested, hcount]
      next hrequested =>
        refine h.keep hshort rfl rfl fun hnone => ?_
        obtain ⟨-, -, hcount, hlast⟩ := h.unmatched hnone
        simp [requestedRows_concat, hconcerns, hrequested, hcount, hlast]

lemma scanned_foldl (rows : List RouteRow) :
    Scanned invocation rows (rows.foldl invocation.scanRow ⟨0, none, 0, none⟩) := by
  induction rows using List.reverseRecOn with
  | nil =>
    refine ⟨fun _ => ⟨rfl, fun row hrow => ?_, rfl, rfl⟩, fun row hrow => ?_⟩
    · cases hrow
    · cases hrow
  | append_singleton rows row ih =>
    rw [foldl_append]
    exact ih.scanRow

lemma scan_spec (invocation : Invocation) (files : List (List RouteRow)) :
    Scanned invocation files.flatten (invocation.scan files) := scan_eq ▸ scanned_foldl files.flatten

/-! ## Every order -/

/-- The same rows in other orders within the files, and the files in another order. -/
def Reordered (files files' : List (List RouteRow)) : Prop :=
  ∃ middle, files.Perm middle ∧ List.Forall₂ List.Perm middle files'

lemma Reordered.perm (h : Reordered files files') : files.flatten.Perm files'.flatten := by
  obtain ⟨middle, hfiles, hrows⟩ := h
  exact hfiles.flatten.trans (List.Perm.flatten_congr hrows)

lemma Greatest.of_perm {rows' : List RouteRow} (h : invocation.Greatest rows row) (hperm : rows.Perm rows') :
    invocation.Greatest rows' row :=
  ⟨hperm.mem_iff.mp h.mem, h.candidate, fun other hother => h.longest other (hperm.mem_iff.mpr hother)⟩

lemma exists_reordered_last (h : row ∈ files.flatten) :
    ∃ files', Reordered files files' ∧ ∃ before, files'.flatten = before ++ [row] := by
  obtain ⟨rows, hrows, hrow⟩ := mem_flatten.mp h
  obtain ⟨first, last, rfl⟩ := append_of_mem hrows
  obtain ⟨start, rest, rfl⟩ := append_of_mem hrow
  refine ⟨first ++ last ++ [start ++ rest ++ [row]], ⟨first ++ last ++ [start ++ row :: rest], ?_, ?_⟩,
    (first ++ last).flatten ++ (start ++ rest), by simp⟩
  · rw [append_assoc]
    exact (perm_append_singleton _ last).symm.append_left first
  refine rel_append (List.forall₂_same.mpr fun _ _ => .refl _) (.cons ?_ .nil)
  rw [append_assoc]
  exact (perm_append_singleton row rest).symm.append_left start

lemma Scanned.takes {search : ComposeRouteSearch} (h : Scanned invocation rows search)
    (hgreatest : invocation.Greatest (rows ++ [row]) row) : (invocation.scanRow search row).context = some row := by
  have hlong : search.bestLength ≤ row.workdir.length := by
    cases hcontext : search.context with
    | none =>
      rw [(h.unmatched hcontext).1]
      exact Nat.zero_le _
    | some best =>
      obtain ⟨hbest, hlength⟩ := h.matched best hcontext
      rw [hlength]
      exact hgreatest.longest best (mem_append_left _ hbest.mem) hbest.candidate
  obtain ⟨hconcerns, hmatches⟩ := hgreatest.candidate
  simp [Invocation.scanRow, hconcerns, hmatches, hlong]

/-- The rows that are in the context after some order of the scan are the greatest ones. -/
lemma wins_iff_greatest :
    (∃ files', Reordered files files' ∧ (invocation.scan files').context = some row) ↔
      invocation.Greatest files.flatten row := by
  constructor
  · rintro ⟨files', hreordered, hcontext⟩
    exact ((scan_spec invocation files').matched row hcontext).1.of_perm hreordered.perm.symm
  intro hgreatest
  obtain ⟨files', hreordered, before, hflatten⟩ := exists_reordered_last hgreatest.mem
  refine ⟨files', hreordered, ?_⟩
  rw [scan_eq, hflatten, foldl_append]
  exact (scanned_foldl before).takes (hflatten ▸ hgreatest.of_perm hreordered.perm)

lemma selected_of_context (h : (invocation.scan files).context = some row) :
    invocation.selected files = named (some row) := by
  simp [selected, h]

lemma selected_of_unmatched (h : (invocation.scan files).context = none) :
    invocation.selected files =
      if (invocation.requestedRows files.flatten).length = 1 then named (invocation.requestedRows files.flatten).getLast?
      else none := by
  obtain ⟨-, -, hcount, hlast⟩ := (scan_spec invocation files).unmatched h
  simp only [selected, h, hcount, hlast, true_and]
  rfl

lemma selected_congr_of_unmatched (hreordered : Reordered files files') (h : (invocation.scan files).context = none)
    (h' : (invocation.scan files').context = none) : invocation.selected files' = invocation.selected files := by
  have hperm : (invocation.requestedRows files.flatten).Perm (invocation.requestedRows files'.flatten) :=
    hreordered.perm.filter _
  rw [selected_of_unmatched h, selected_of_unmatched h', hperm.length_eq]
  split
  next hone =>
    obtain ⟨only, honly⟩ := length_eq_one_iff.mp hone
    rw [honly] at hperm
    rw [honly, perm_singleton.mp hperm]
  next => rfl

lemma named_inj {first second : RouteRow} :
    named (some first) = named (some second) ↔ first.projectOrOriginalId = second.projectOrOriginalId := by
  simp only [named, Option.map_some, Option.filter_some]
  constructor
  · intro h
    by_cases hfirst : first.projectOrOriginalId = []
    · by_cases hsecond : second.projectOrOriginalId = []
      · rw [hfirst, hsecond]
      · simp [hfirst, hsecond] at h
    · by_cases hsecond : second.projectOrOriginalId = []
      · simp [hfirst, hsecond] at h
      · simpa [hfirst, hsecond] using h
  · intro h
    rw [h]

lemma selected_reordered_iff :
    (∀ files', Reordered files files' → invocation.selected files' = invocation.selected files) ↔
      ∀ first second, invocation.Greatest files.flatten first → invocation.Greatest files.flatten second →
        first.projectOrOriginalId = second.projectOrOriginalId := by
  constructor
  · intro h first second hfirst hsecond
    obtain ⟨files₁, hfiles₁, hcontext₁⟩ := wins_iff_greatest.mpr hfirst
    obtain ⟨files₂, hfiles₂, hcontext₂⟩ := wins_iff_greatest.mpr hsecond
    rw [← named_inj, ← selected_of_context hcontext₁, ← selected_of_context hcontext₂, h files₁ hfiles₁,
      h files₂ hfiles₂]
  intro h files' hreordered
  have hspec := scan_spec invocation files
  have hspec' := scan_spec invocation files'
  cases hcontext : (invocation.scan files).context with
  | none =>
    cases hcontext' : (invocation.scan files').context with
    | none => exact selected_congr_of_unmatched hreordered hcontext hcontext'
    | some row' =>
      have hgreatest := (hspec'.matched row' hcontext').1.of_perm hreordered.perm.symm
      exact absurd hgreatest.candidate ((hspec.unmatched hcontext).2.1 row' hgreatest.mem)
  | some row =>
    have hgreatest := (hspec.matched row hcontext).1
    cases hcontext' : (invocation.scan files').context with
    | none =>
      have hgreatest' := hgreatest.of_perm hreordered.perm
      exact absurd hgreatest'.candidate ((hspec'.unmatched hcontext').2.1 row hgreatest'.mem)
    | some row' =>
      have hgreatest' := (hspec'.matched row' hcontext').1.of_perm hreordered.perm.symm
      rw [selected_of_context hcontext, selected_of_context hcontext', named_inj]
      exact h row' row hgreatest' hgreatest

/-! ## The current directory -/

def components (path : Text) : List Text := (path.splitOn 47).filter (· ≠ [])

variable (invocation) in
/-- A project row whose directory is the current one or contains it. -/
structure Encloses (rows : List RouteRow) (row : RouteRow) : Prop where
  mem : row ∈ rows
  concerns : invocation.concerns row = true
  kind : row.kind = .project
  encloses : ∃ cwd, invocation.cwd = some cwd ∧ components row.workdir <+: components cwd

variable (invocation) in
def IsBelow (row : RouteRow) : Prop :=
  ∃ cwd, invocation.cwd = some cwd ∧ components cwd <+: components row.workdir ∧ components cwd ≠ components row.workdir

/-- Every order gives one project and no enclosing row is beaten by one below, exactly when the greatest rows name one project and
none of them is below the current directory where a row encloses it. -/
theorem compose_project_selected_iff (invocation : Invocation) (files : List (List RouteRow)) :
    ((∀ files', Reordered files files' → invocation.selected files' = invocation.selected files) ∧
      ∀ files', Reordered files files' → ∀ owner winner, invocation.Encloses files.flatten owner →
        (invocation.scan files').context = some winner → ¬invocation.IsBelow winner) ↔
    ((∀ first second, invocation.Greatest files.flatten first → invocation.Greatest files.flatten second →
        first.projectOrOriginalId = second.projectOrOriginalId) ∧
      ∀ owner winner, invocation.Encloses files.flatten owner → invocation.Greatest files.flatten winner →
        ¬invocation.IsBelow winner) := by
  refine and_congr selected_reordered_iff
    ⟨fun h owner winner howner hwinner => ?_, fun h files' hfiles' owner winner howner hwinner => ?_⟩
  · obtain ⟨files', hfiles', hcontext⟩ := wins_iff_greatest.mpr hwinner
    exact h files' hfiles' owner winner howner hcontext
  · exact h owner winner howner (wins_iff_greatest.mp ⟨files', hfiles', hwinner⟩)

def inRepo : Invocation where
  runtime := ascii "docker"
  networkId := ascii "net"
  requestedProject := []
  pwd := some (ascii "/repo")
  cwd := some (ascii "/repo")
  realpath := some
  argvReferencesComposeFile _ := false
  composeProjectNameFromDirectory _ := []

def projectRow (workdir project : String) : RouteRow :=
  ⟨.project, ascii "net", ascii "docker", ascii workdir, ascii project, [], []⟩

/-- Two rows of one directory are decided by their order, and the row of `/repo/docker` beats the row of `/repo`. -/
theorem order_and_depth_decide :
    inRepo.selected [[projectRow "/repo" "a", projectRow "/repo" "b"]] = some (ascii "b") ∧
      inRepo.selected [[projectRow "/repo" "b", projectRow "/repo" "a"]] = some (ascii "a") ∧
      inRepo.selected [[projectRow "/repo/docker" "below", projectRow "/repo" "here"]] = some (ascii "below") := by
  decide +kernel

end Invocation

end PortManager.DockerShim
