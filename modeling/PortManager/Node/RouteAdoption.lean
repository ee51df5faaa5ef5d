import PortManager.Node.RoutePaths

/-!
# Adoption of route files

Embeds `adoptPreviousGenerationRouteFiles` of `src/agent/port-manager-agent.ts`, which at start-up sorts
the files of an earlier daemon by their names: compose claims and endpoint entries, which a later pass
deletes, and network tables, which it empties.

The module says for each of the five path builders of `src/agent/route-table.ts` when its files are
adopted as what they are. The classifier only sees the text between the stem and the extension of the base
path: the entry of an endpoint without a network looks like a network table, a gateway claim looks like an
endpoint entry, and an id with `-port-` inside looks like one too.
-/

namespace PortManager.Node
open PosixPath JsonText List

inductive Adopted where
  | claim (path : List Nat)
  | entry (path : List Nat)
  | network (networkId : List Nat)
  | ignored
deriving DecidableEq

/-- The loop body of `adoptPreviousGenerationRouteFiles`. -/
def adoptRouteFile (base fileName : List Nat) : Adopted :=
  let parsed := parse base
  if ¬ parsed.name ++ [45] <+: fileName ∨ ¬ parsed.ext <:+ fileName then .ignored
  else
    let routeFilePath := join [parsed.dir, fileName]
    let scopedName := (fileName.take (fileName.length - parsed.ext.length)).drop (parsed.name.length + 1)
    if codes "compose-claim-port-" <+: scopedName then .claim routeFilePath
    else if codes "-port-" <:+: scopedName then .entry routeFilePath
    else if scopedName ≠ [] then .network scopedName
    else .ignored

variable (base : List Nat)

/-- `adoptPreviousGenerationRouteFiles` on the names `readdirSync` returns. It throws on the empty string,
the directory of a base path without a slash, and then nothing is adopted. -/
def adoptPreviousGenerationRouteFiles (fileNames : List (List Nat)) : List Adopted :=
  if (parse base).dir = [] then [] else fileNames.map (adoptRouteFile base)

/-! ## The builders -/

/-- The generated files: a network table, the entry of an endpoint with or without a network, a compose
claim, and the claim of the gateway. -/
inductive RouteShard where
  | network (networkId : List Nat)
  | entry (port : Nat) (networkId : Option (List Nat))
  | composeClaim (port : Nat)
  | gatewayClaim (port : Nat)

def RouteShard.path : RouteShard → List Nat
  | .network networkId => getNetworkRouteTablePath networkId base
  | .entry port networkId => getRouteTablePathForLogicalPort port networkId base
  | .composeClaim port => getRouteTablePathForComposeClaimPort port base
  | .gatewayClaim port => getRouteTablePathForGatewayClaimPort port base

variable (shard : RouteShard)

def RouteShard.fileName : List Nat :=
  (shard.path base).rtakeWhile (· ≠ 47)

def RouteShard.adopted : List Adopted :=
  adoptPreviousGenerationRouteFiles base [shard.fileName base]

/-- The file is adopted as what it is: a network table under an id that rebuilds its path, an entry or a
compose claim under its path, and a gateway claim as nothing that is deleted. -/
def RouteShard.AdoptedRight : Prop :=
  match shard with
  | .network _ => ∃ id, shard.adopted base = [.network id] ∧ getNetworkRouteTablePath id base = shard.path base
  | .entry _ _ => shard.adopted base = [.entry (shard.path base)]
  | .composeClaim _ => shard.adopted base = [.claim (shard.path base)]
  | .gatewayClaim _ => ∀ path, .entry path ∉ shard.adopted base ∧ .claim path ∉ shard.adopted base

def networkSuffix (networkId : Option (List Nat)) : List Nat := (networkId.map scopeSuffix).getD []

def RouteShard.Adoptable : Prop :=
  match shard with
  | .network networkId =>
    (parse base).dir ≠ [] ∧ ¬ codes "-port-" <:+: sanitizeRouteTableScope networkId ∧
      ((parse base).ext ≠ [] ∨ (sanitizeRouteTableScope networkId).length = 120)
  | .entry port networkId =>
    (parse base).dir ≠ [] ∧ networkSuffix networkId ≠ [] ∧
      ¬ codes "-compose-claim-port-" <+: networkSuffix networkId ++ portSuffix port
  | .composeClaim _ => (parse base).dir ≠ []
  | .gatewayClaim _ => (parse base).dir = []

/-! ## Words in a text with an extension -/

section Words

variable {word text rest : List Nat} {c : Nat}

/-- A word without a character stands before it or not at all. -/
lemma isPrefix_append_cons (hword : c ∉ word) : word <+: text ++ c :: rest ↔ word <+: text := by
  refine ⟨fun h => ?_, fun h => h.trans (prefix_append _ _)⟩
  induction text generalizing word with
  | nil =>
    cases word with
    | nil => exact nil_prefix
    | cons d word =>
      obtain ⟨rfl, -⟩ := cons_prefix_cons.mp h
      exact absurd mem_cons_self hword
  | cons e text ih =>
    cases word with
    | nil => exact nil_prefix
    | cons d word =>
      obtain ⟨rfl, htail⟩ := cons_prefix_cons.mp h
      exact cons_prefix_cons.mpr ⟨rfl, ih (fun hmem => hword (mem_cons_of_mem _ hmem)) htail⟩

lemma isInfix_append_cons (hword : c ∉ word) (hne : word ≠ []) :
    word <:+: text ++ c :: rest ↔ word <:+: text ∨ word <:+: rest := by
  induction text with
  | nil =>
    rw [nil_append, infix_cons_iff, show c :: rest = [] ++ c :: rest from rfl,
      isPrefix_append_cons hword]
    simp [hne]
  | cons d text ih =>
    rw [cons_append, infix_cons_iff, ih, ← cons_append, isPrefix_append_cons hword,
      infix_cons_iff, or_assoc]

end Words

/-! ## Classification -/

/-- What the classifier leaves of the extension: all of it, when the base path has none. -/
def leftExtension : List Nat := if (parse base).ext = [] then codes ".json" else []

lemma routeTableExtension_split : routeTableExtension base = leftExtension base ++ (parse base).ext := by
  unfold routeTableExtension leftExtension
  split
  next h => rw [h, append_nil]
  next => rfl

lemma adoptRouteFile_suffixed (base rest : List Nat) :
    adoptRouteFile base ((parse base).name ++ (45 :: rest ++ routeTableExtension base)) =
      if codes "compose-claim-port-" <+: rest ++ leftExtension base then .claim (suffixedPath base (45 :: rest))
      else if codes "-port-" <:+: rest ++ leftExtension base then .entry (suffixedPath base (45 :: rest))
      else if rest ++ leftExtension base ≠ [] then .network (rest ++ leftExtension base)
      else .ignored := by
  have hfile : (parse base).name ++ (45 :: rest ++ routeTableExtension base) =
      ((parse base).name ++ [45]) ++ ((rest ++ leftExtension base) ++ (parse base).ext) := by
    rw [routeTableExtension_split]
    simp
  have hnamed : (parse base).name ++ [45] <+: (parse base).name ++ (45 :: rest ++ routeTableExtension base) := by
    rw [hfile]
    exact prefix_append _ _
  have hended : (parse base).ext <:+ (parse base).name ++ (45 :: rest ++ routeTableExtension base) := by
    rw [hfile, ← append_assoc]
    exact suffix_append _ _
  have hscoped : ((((parse base).name ++ (45 :: rest ++ routeTableExtension base)).take
      (((parse base).name ++ (45 :: rest ++ routeTableExtension base)).length - (parse base).ext.length)).drop
        ((parse base).name.length + 1)) = rest ++ leftExtension base := by
    rw [hfile, ← append_assoc, length_append, Nat.add_sub_cancel, take_left']
    · exact drop_left' (by simp)
    · rfl
  unfold adoptRouteFile
  simp only [hscoped]
  rw [if_neg (not_or.mpr ⟨not_not.mpr hnamed, not_not.mpr hended⟩)]
  rfl

open RouteShard

lemma RouteShard.adopted_eq {base rest : List Nat} {shard : RouteShard} (hrest : 47 ∉ rest)
    (hpath : shard.path base = suffixedPath base (45 :: rest)) (hdir : (parse base).dir ≠ []) :
    shard.adopted base =
      [if codes "compose-claim-port-" <+: rest ++ leftExtension base then .claim (shard.path base)
      else if codes "-port-" <:+: rest ++ leftExtension base then .entry (shard.path base)
      else if rest ++ leftExtension base ≠ [] then .network (rest ++ leftExtension base)
      else .ignored] := by
  have hname : shard.fileName base = (parse base).name ++ (45 :: rest ++ routeTableExtension base) := by
    rw [fileName, hpath]
    exact rtakeWhile_join _ (plain_suffixed base hrest)
  rw [adopted, adoptPreviousGenerationRouteFiles, if_neg hdir, hname, hpath, map_singleton,
    adoptRouteFile_suffixed]

lemma RouteShard.adopted_nil {base : List Nat} (hdir : (parse base).dir = []) : shard.adopted base = [] := if_pos hdir

lemma isPrefix_leftExtension {word text : List Nat} (hword : 46 ∉ word) :
    word <+: text ++ leftExtension base ↔ word <+: text := by
  unfold leftExtension
  split
  · exact isPrefix_append_cons hword
  · rw [append_nil]

lemma isInfix_leftExtension {text : List Nat} :
    codes "-port-" <:+: text ++ leftExtension base ↔ codes "-port-" <:+: text := by
  unfold leftExtension
  split
  · refine (isInfix_append_cons (by decide) (by decide)).trans (or_iff_left ?_)
    decide
  · rw [append_nil]

/-! ## The five builders -/

lemma sanitizeRouteTableScope_ne_nil (value : List Nat) : sanitizeRouteTableScope value ≠ [] := by
  unfold sanitizeRouteTableScope
  simp only
  split
  · decide
  next h => exact h

lemma length_sanitizeRouteTableScope_le (value : List Nat) : (sanitizeRouteTableScope value).length ≤ 120 := by
  unfold sanitizeRouteTableScope
  simp only
  split
  · decide
  · exact length_take_le _ _

lemma sanitizeRouteTableScope_of_allowed {value : List Nat} (hne : value ≠ [])
    (h : ∀ c ∈ value, isScopeUnit c = true) : sanitizeRouteTableScope value = value.take 120 := by
  have hmap : value.map (fun c => if isScopeUnit c then c else 95) = value := by
    conv_rhs => rw [← map_id value]
    refine map_congr_left fun c hc => ?_
    rw [if_pos (h c hc)]
    rfl
  unfold sanitizeRouteTableScope
  simp only [hmap]
  refine if_neg fun hnil => hne ?_
  rcases take_eq_nil_iff.mp hnil with h | h
  · cases h
  · exact h

lemma sanitize_adopted_iff (base networkId : List Nat) :
    sanitizeRouteTableScope (sanitizeRouteTableScope networkId ++ leftExtension base) =
        sanitizeRouteTableScope networkId ↔
      (parse base).ext ≠ [] ∨ (sanitizeRouteTableScope networkId).length = 120 := by
  have hallowed : ∀ c ∈ sanitizeRouteTableScope networkId ++ leftExtension base, isScopeUnit c = true := by
    intro c hc
    rcases mem_append.mp hc with hc | hc
    · exact mem_sanitizeRouteTableScope hc
    have hjson : ∀ c ∈ codes ".json", isScopeUnit c = true := by decide
    unfold leftExtension at hc
    split at hc
    · exact hjson c hc
    · cases hc
  have hne := sanitizeRouteTableScope_ne_nil networkId
  have hlength := length_sanitizeRouteTableScope_le networkId
  rw [sanitizeRouteTableScope_of_allowed (by simp [hne]) hallowed]
  generalize sanitizeRouteTableScope networkId = scope at hne hlength
  unfold leftExtension
  split
  next hext =>
    rw [hext]
    simp only [ne_eq, not_true_eq_false, false_or]
    constructor
    · intro h
      have hcut := congrArg List.length h
      simp only [length_take, length_append, show (codes ".json").length = 5 from rfl] at hcut
      omega
    · intro h
      exact take_left' h
  next hext =>
    rw [append_nil, take_of_length_le hlength]
    exact ⟨fun _ => .inl hext, fun _ => rfl⟩

lemma compose_isPrefix_isInfix {text : List Nat} (h : codes "compose-claim-port-" <+: text) :
    codes "-port-" <:+: text := by
  have hword : codes "-port-" <:+ codes "compose-claim-port-" := by decide
  exact hword.isInfix.trans h.isInfix

lemma network_adopted_iff (base networkId : List Nat) :
    (network networkId).AdoptedRight base ↔ (network networkId).Adoptable base := by
  have hscope : 47 ∉ sanitizeRouteTableScope networkId := fun h =>
    absurd (mem_sanitizeRouteTableScope h) (by decide)
  unfold AdoptedRight Adoptable
  simp only
  by_cases hdir : (parse base).dir = []
  · rw [adopted_nil _ hdir]
    refine iff_of_false ?_ fun h => h.1 hdir
    rintro ⟨id, h, -⟩
    cases h
  rw [adopted_eq hscope rfl hdir]
  by_cases hport : codes "-port-" <:+: sanitizeRouteTableScope networkId
  · -- adopted as a claim or as an entry
    refine iff_of_false ?_ fun h => h.2.1 hport
    rintro ⟨id, h, -⟩
    rw [if_pos ((isInfix_leftExtension base).mpr hport)] at h
    split at h <;> cases h
  have hclaim : ¬ codes "compose-claim-port-" <+: sanitizeRouteTableScope networkId ++ leftExtension base :=
    fun h => hport ((isInfix_leftExtension base).mp (compose_isPrefix_isInfix h))
  rw [if_neg hclaim, if_neg (mt (isInfix_leftExtension base).mp hport), if_pos (by simp [sanitizeRouteTableScope_ne_nil]),
    ← sanitize_adopted_iff base networkId]
  constructor
  · rintro ⟨id, hid, hpath⟩
    cases hid
    refine ⟨hdir, hport, suffixedPath_injective base (fun h => ?_) hscope hpath⟩
    exact absurd (mem_sanitizeRouteTableScope h) (by decide)
  · rintro ⟨-, -, hrebuilt⟩
    exact ⟨_, rfl, congrArg (fun scope => suffixedPath base (45 :: scope)) hrebuilt⟩

variable (port : Nat)

lemma entry_path (networkId : Option (List Nat)) :
    ∃ rest, networkSuffix networkId ++ portSuffix port = 45 :: rest ∧ 47 ∉ rest ∧
      (entry port networkId).path base = suffixedPath base (45 :: rest) := by
  cases networkId with
  | none =>
    obtain ⟨rest, hrest, hslash⟩ := slash_not_mem_portSuffix port
    exact ⟨rest, hrest, hslash, congrArg (suffixedPath base) hrest⟩
  | some networkId =>
    rcases routeTablePath_eq base networkId (some port) with ⟨hnone, -⟩ | h
    · obtain ⟨rest, hrest, -⟩ := slash_not_mem_portSuffix port
      rw [routeSuffix, Option.map_some, Option.getD_some, hrest] at hnone
      exact absurd (append_eq_nil_iff.mp hnone).2 (cons_ne_nil _ _)
    · exact h

lemma not_isInfix_port : ¬ codes "-port-" <:+: codes "port-" ++ decimal port := by
  intro h
  have hcount := h.sublist.count_le 45
  have hdigits : (decimal port).count 45 = 0 := by
    refine count_eq_zero.mpr fun hmem => ?_
    have := mem_decimal hmem
    omega
  rw [count_append, hdigits] at hcount
  revert hcount
  decide

lemma entry_adopted_iff (networkId : Option (List Nat)) :
    (entry port networkId).AdoptedRight base ↔ (entry port networkId).Adoptable base := by
  obtain ⟨rest, hrest, hslash, hpath⟩ := entry_path base port networkId
  unfold AdoptedRight Adoptable
  simp only
  by_cases hdir : (parse base).dir = []
  · rw [adopted_nil _ hdir]
    exact iff_of_false (fun h => by cases h) fun h => h.1 hdir
  rw [adopted_eq hslash hpath hdir, hrest]
  cases hscope : networkSuffix networkId with
  | nil =>
    -- adopted as a network table
    refine iff_of_false ?_ fun h => h.2.1 rfl
    have hport : rest = codes "port-" ++ decimal port := by
      rw [hscope] at hrest
      exact (List.cons.inj hrest).2.symm
    intro h
    rw [if_neg, if_neg] at h
    · split at h <;> cases h
    · rw [isInfix_leftExtension, hport]
      exact not_isInfix_port port
    rw [isPrefix_leftExtension base (by decide), hport]
    intro hclaim
    exact absurd (cons_prefix_cons.mp hclaim).1 (by decide)
  | cons c scope =>
    rw [hscope] at hrest
    obtain ⟨rfl, htail⟩ := List.cons.inj hrest
    have hport : codes "-port-" <:+: rest ++ leftExtension base := by
      rw [isInfix_leftExtension, ← htail]
      exact ⟨scope, decimal port, append_assoc ..⟩
    have hclaim : codes "compose-claim-port-" <+: rest ++ leftExtension base ↔
        codes "-compose-claim-port-" <+: 45 :: rest := by
      rw [isPrefix_leftExtension base (by decide)]
      exact ⟨fun h => cons_prefix_cons.mpr ⟨rfl, h⟩, fun h => (cons_prefix_cons.mp h).2⟩
    rw [if_pos hport, ← hclaim]
    constructor
    · intro h
      refine ⟨hdir, cons_ne_nil _ _, fun hcompose => ?_⟩
      rw [if_pos hcompose] at h
      cases h
    · rintro ⟨-, -, hcompose⟩
      rw [if_neg hcompose]

lemma composeClaim_adopted_iff :
    (composeClaim port).AdoptedRight base ↔ (composeClaim port).Adoptable base := by
  have hslash : 47 ∉ codes "compose-claim-port-" ++ decimal port := slash_not_mem_append_decimal (by decide) port
  unfold AdoptedRight Adoptable
  simp only
  by_cases hdir : (parse base).dir = []
  · rw [adopted_nil _ hdir]
    exact iff_of_false (fun h => by cases h) fun h => h hdir
  have hclaim : codes "compose-claim-port-" <+:
      codes "compose-claim-port-" ++ decimal port ++ leftExtension base := by
    rw [append_assoc]
    exact prefix_append _ _
  rw [adopted_eq hslash rfl hdir, if_pos hclaim]
  exact iff_of_true rfl hdir

lemma gatewayClaim_adopted_iff :
    (gatewayClaim port).AdoptedRight base ↔ (gatewayClaim port).Adoptable base := by
  have hslash : 47 ∉ codes "mux-claim-port-" ++ decimal port := slash_not_mem_append_decimal (by decide) port
  unfold AdoptedRight Adoptable
  simp only
  by_cases hdir : (parse base).dir = []
  · rw [adopted_nil _ hdir]
    exact iff_of_true (fun path => ⟨not_mem_nil, not_mem_nil⟩) hdir
  have hclaim : ¬ codes "compose-claim-port-" <+: codes "mux-claim-port-" ++ decimal port ++ leftExtension base :=
    fun h => absurd (cons_prefix_cons.mp h).1 (by decide)
  have hport : codes "-port-" <:+: codes "mux-claim-port-" ++ decimal port ++ leftExtension base :=
    ⟨codes "mux-claim", decimal port ++ leftExtension base, by simp [codes]⟩
  rw [adopted_eq hslash rfl hdir, if_neg hclaim, if_pos hport]
  exact iff_of_false (fun h => (h _).1 mem_cons_self) hdir

/-- A generated file is adopted as what it is exactly when its name is not that of another kind. -/
theorem adoptedRight_iff (base : List Nat) (shard : RouteShard) : shard.AdoptedRight base ↔ shard.Adoptable base := by
  cases shard with
  | network networkId => exact network_adopted_iff base networkId
  | entry port networkId => exact entry_adopted_iff base port networkId
  | composeClaim port => exact composeClaim_adopted_iff base port
  | gatewayClaim port => exact gatewayClaim_adopted_iff base port

/-- An unscoped entry is adopted as a network, and a gateway claim and the table of a network with `-port-`
in its id as entries. -/
theorem shards_adopted_as_others :
    (entry 3000 none).adopted (codes "/r/routes.json") = [.network (codes "port-3000")] ∧
      (gatewayClaim 3000).adopted (codes "/r/routes.json") =
        [.entry (codes "/r/routes-mux-claim-port-3000.json")] ∧
      (network (codes "a-port-b")).adopted (codes "/r/routes.json") =
        [.entry (codes "/r/routes-a-port-b.json")] := by
  decide +kernel

end PortManager.Node
