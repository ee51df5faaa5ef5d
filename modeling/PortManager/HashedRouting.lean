import PortManager.Base.Utf8Chunks
import PortManager.Native.ControllerScope
import PortManager.Node.PortRouting

/-!
# Two implementations of hashed routing

Both daemons choose the actual port of a hashed route by probing a virtual range from a slot that FNV-1a gives for
the scope and the logical port. The probing is the same; the hashes are not: the native daemon hashes the bytes of
the scope, the Node daemon its UTF-16 units. They also read a bound of the range that is not positive differently,
and the native count of candidates overflows for the largest scan range.
-/

namespace PortManager
open CText Native JsonText List

/-! ## Probing -/

/-- The candidates behind the slot of a hash, in a range of ports. -/
def probing (hash : UInt32) (scanRange first last : Nat) : List Nat :=
  let rangeSize := last - first + 1
  (List.range (min rangeSize (scanRange + 1))).map fun offset => first + (hash.toNat % rangeSize + offset) % rangeSize

def SameSlot (hash hash' : UInt32) (first last : Nat) : Prop :=
  hash.toNat % (last - first + 1) = hash'.toNat % (last - first + 1)

def probed (available : Int → Bool) : List Int → List Int
  | [] => []
  | port :: ports => if available port then [port] else port :: probed available ports

variable (available : Int → Bool)

lemma head?_probed (ports : List Int) : (probed available ports).head? = ports.head? := by
  cases ports with
  | nil => rfl
  | cons port ports =>
    unfold probed
    split <;> rfl

lemma find?_probed (ports : List Int) : (probed available ports).find? available = ports.find? available := by
  induction ports with
  | nil => rfl
  | cons port ports ih =>
    unfold probed
    cases havailable : available port with
    | true => rw [if_pos rfl, find?_cons_of_pos havailable, find?_cons_of_pos havailable]
    | false =>
      have hnot : ¬ available port = true := by rw [havailable]; exact Bool.false_ne_true
      rw [if_neg Bool.false_ne_true, find?_cons_of_neg hnot, find?_cons_of_neg hnot, ih]

lemma probing_congr {hash hash' : UInt32} {first last : Nat} (h : SameSlot hash hash' first last) (scanRange : Nat) :
    probing hash scanRange first last = probing hash' scanRange first last := by
  unfold probing
  dsimp only
  rw [h]

lemma head?_probing (hash : UInt32) (scanRange first last : Nat) :
    (probing hash scanRange first last).head? = some (first + hash.toNat % (last - first + 1)) := by
  have hcount : min (last - first + 1) (scanRange + 1) = min (last - first) scanRange + 1 := Nat.succ_min_succ ..
  unfold probing
  dsimp only
  rw [hcount, range_succ_eq_map, map_cons, head?_cons, Nat.add_zero, Nat.mod_mod]

lemma probed_probing_iff {hash hash' : UInt32} {scanRange first last : Nat} :
    probed available ((probing hash scanRange first last).map Nat.cast) =
      probed available ((probing hash' scanRange first last).map Nat.cast) ↔ SameSlot hash hash' first last := by
  constructor
  · intro h
    have hhead := congrArg List.head? h
    simp only [head?_probed, head?_map, head?_probing, Option.map_some, Option.some.injEq] at hhead
    exact add_left_cancel (Int.ofNat.inj hhead)
  · intro h
    rw [probing_congr h]

def probesBefore (hash : UInt32) (first last port : Nat) : Nat :=
  let slot := hash.toNat % (last - first + 1)
  if slot ≤ port - first then port - first - slot else port - first + (last - first + 1) - slot

lemma mod_add_eq_iff {size slot offset place : Nat} (hslot : slot < size) (hoffset : offset < size)
    (hplace : place < size) :
    (slot + offset) % size = place ↔ offset = if slot ≤ place then place - slot else place + size - slot := by
  rcases lt_or_ge (slot + offset) size with hlt | hge
  · rw [Nat.mod_eq_of_lt hlt]
    split <;> omega
  · rw [Nat.mod_eq_sub_mod hge, Nat.mod_eq_of_lt (by omega)]
    split <;> omega

lemma mem_probing {hash : UInt32} {scanRange first last port : Nat} (hle : first ≤ last) :
    port ∈ probing hash scanRange first last ↔
      first ≤ port ∧ port ≤ last ∧ probesBefore hash first last port ≤ scanRange := by
  have hslot : hash.toNat % (last - first + 1) < last - first + 1 := Nat.mod_lt _ (Nat.succ_pos _)
  simp only [probing, probesBefore, mem_map, mem_range]
  generalize hash.toNat % (last - first + 1) = slot at hslot
  constructor
  · rintro ⟨offset, hoffset, rfl⟩
    have hplace : (slot + offset) % (last - first + 1) < last - first + 1 := Nat.mod_lt _ (Nat.succ_pos _)
    have hbefore := (mod_add_eq_iff hslot (by omega) hplace).mp rfl
    rw [Nat.add_sub_cancel_left, ← hbefore]
    omega
  rintro ⟨hfirst, hlast, hbefore⟩
  generalize hoffset : (if slot ≤ port - first then _ else _) = offset at hbefore
  have hlt : offset < last - first + 1 := by
    subst hoffset
    split <;> omega
  have hplace := (mod_add_eq_iff hslot hlt (by omega : port - first < _)).mpr hoffset.symm
  exact ⟨offset, by omega, by omega⟩

lemma nodup_probing (hash : UInt32) (scanRange first last : Nat) : (probing hash scanRange first last).Nodup := by
  have hslot : hash.toNat % (last - first + 1) < last - first + 1 := Nat.mod_lt _ (Nat.succ_pos _)
  refine List.Nodup.map_on (fun offset hoffset other hother hsame => ?_) nodup_range
  rw [mem_range] at hoffset hother
  have hplace : (hash.toNat % (last - first + 1) + other) % (last - first + 1) < last - first + 1 :=
    Nat.mod_lt _ (Nat.succ_pos _)
  have hoffset' := (mod_add_eq_iff hslot (by omega) hplace).mp (add_left_cancel hsame)
  exact hoffset'.trans ((mod_add_eq_iff hslot (by omega) hplace).mp rfl).symm

/-! ## The native side -/

namespace Native

variable (input : AllocateInput)

/-- The bounds of C `pm_route_hashed`. -/
def virtualFirst : Int := if input.virtualStart ≤ 0 then 53000 else input.virtualStart

def virtualLast : Int := if input.virtualEnd ≤ 0 then 59999 else input.virtualEnd

/-- The test of C `pm_route_hashed`. -/
def VirtualRangeOk (first last : Int) : Prop := isValidPort first = true ∧ isValidPort last = true ∧ first ≤ last

instance (first last : Int) : Decidable (VirtualRangeOk first last) := inferInstanceAs (Decidable (_ ∧ _ ∧ _))

/-- The text that C `pm_route_hashed` hashes. -/
def hashInput : Text :=
  truncate (PM_TEXT + PM_SMALL + 32) (truncate (PM_TEXT + PM_SMALL)
    (if input.networkId = [] then input.cwd else input.networkId) ++ 58 :: decimal input.requestedPort)

/-- The ports C `pm_route_hashed` tries, `none` when `scan_range + 1` overflows. -/
def definedCandidates : Option (List Int) :=
  if VirtualRangeOk (virtualFirst input) (virtualLast input) ∧ 2 ^ 31 ≤ input.scanRange + 1 then none
  else some (hashedCandidates input)

lemma hashedCandidates_of_not_ok {input : AllocateInput}
    (hrange : ¬ VirtualRangeOk (virtualFirst input) (virtualLast input)) : hashedCandidates input = [] := if_neg hrange

lemma hashedCandidates_eq {input : AllocateInput} (hrange : VirtualRangeOk (virtualFirst input) (virtualLast input)) :
    hashedCandidates input = if input.scanRange < 0 then [] else
      (probing (hashText (hashInput input)) input.scanRange.toNat (virtualFirst input).toNat
        (virtualLast input).toNat).map Nat.cast := by
  obtain ⟨hfirst, hlast, hle⟩ := hrange
  have hpositive : 1 ≤ virtualFirst input := (of_decide_eq_true hfirst).1
  have hsize : virtualLast input - virtualFirst input + 1 =
      (((virtualLast input).toNat - (virtualFirst input).toNat + 1 : Nat) : Int) := by omega
  have hcandidates : hashedCandidates input =
      (List.range (min (input.scanRange + 1) (virtualLast input - virtualFirst input + 1)).toNat).map fun (offset : Nat) =>
        virtualFirst input + (((hashText (hashInput input)).toNat %
          (virtualLast input - virtualFirst input + 1).toNat : Nat) + offset) %
          (virtualLast input - virtualFirst input + 1) := if_pos ⟨hfirst, hlast, hle⟩
  rw [hcandidates, hsize]
  split
  next hnegative =>
    have hcount : (min (input.scanRange + 1)
        (((virtualLast input).toNat - (virtualFirst input).toNat + 1 : Nat) : Int)).toNat = 0 := by omega
    rw [hcount]
    rfl
  next hnegative =>
    have hcount : (min (input.scanRange + 1)
        (((virtualLast input).toNat - (virtualFirst input).toNat + 1 : Nat) : Int)).toNat =
        min ((virtualLast input).toNat - (virtualFirst input).toNat + 1) (input.scanRange.toNat + 1) := by omega
    rw [hcount, probing, map_map]
    refine map_congr_left fun offset _ => ?_
    have hcast : virtualFirst input = ((virtualFirst input).toNat : Int) := by omega
    rw [Function.comp_apply, Int.toNat_natCast]
    generalize (virtualLast input).toNat - (virtualFirst input).toNat + 1 = size
    generalize (virtualFirst input).toNat = first at hcast
    rw [hcast]
    push_cast
    rfl

/-- The answers along a run of probes are those of a predicate. -/
def Answers (os : Os) (host : Text) (available : Int → Bool) : AgentState → List Int → Prop
  | _, [] => True
  | s, port :: ports => (portAvailable os s port host).1 = available port ∧
    Answers os host available (portAvailable os s port host).2 ports

instance decidableAnswers (os : Os) (host : Text) (available : Int → Bool) :
    ∀ (s : AgentState) (ports : List Int), Decidable (Answers os host available s ports)
  | _, [] => .isTrue trivial
  | s, port :: ports =>
    have := decidableAnswers os host available (portAvailable os s port host).2 ports
    inferInstanceAs (Decidable (_ ∧ Answers os host available (portAvailable os s port host).2 ports))

lemma firstAvailable_eq {os : Os} {host : Text} {available : Int → Bool} {s : AgentState} {ports : List Int}
    (hanswers : Answers os host available s ports) :
    (firstAvailable os host s ports).1 = (ports.find? available).getD 0 := by
  induction ports generalizing s with
  | nil => rfl
  | cons port ports ih =>
    obtain ⟨hanswer, hrest⟩ := hanswers
    unfold firstAvailable
    generalize portAvailable os s port host = result at hanswer hrest
    obtain ⟨answer, s'⟩ := result
    obtain rfl : answer = available port := hanswer
    cases havailable : available port with
    | true => rw [find?_cons_of_pos havailable]; rfl
    | false =>
      rw [find?_cons_of_neg (by rw [havailable]; exact Bool.false_ne_true)]
      exact ih hrest

end Native

/-! ## The Node side -/

namespace Node

/-- The ports `routeHashed` checks, `none` when `buildHashedPortCandidates` throws. -/
def routeHashedCandidates (requestedPort : Nat) (routeScope : List Nat) (scanRange first last : Int) :
    Option (List Nat) :=
  if !isValidPort first.toNat ∨ !isValidPort last.toNat ∨ last < first then none
  else if scanRange < 0 then none
  else some (buildHashedPortCandidates requestedPort routeScope scanRange.toNat first.toNat last.toNat)

/-- There are as many candidates as the range and the scan range allow, all different and in the range. The logical
port is none of them exactly when it is outside of the range or behind the last probe. -/
theorem hashed_candidates_avoid_port_iff (requestedPort : Nat) (routeScope : List Nat) (scanRange first last : Nat)
    (hle : first ≤ last) :
    let candidates := buildHashedPortCandidates requestedPort routeScope scanRange first last
    candidates.length = min (last - first + 1) (scanRange + 1) ∧ candidates.Nodup ∧
      (∀ port ∈ candidates, first ≤ port ∧ port ≤ last) ∧
      (requestedPort ∉ candidates ↔ (first ≤ requestedPort → requestedPort ≤ last → scanRange <
        probesBefore (hashText (routeScope ++ 58 :: decimal requestedPort)) first last requestedPort)) := by
  intro candidates
  have hprobing : candidates =
      probing (hashText (routeScope ++ 58 :: decimal requestedPort)) scanRange first last := rfl
  rw [hprobing]
  refine ⟨by simp [probing], nodup_probing _ _ _ _, fun port hport => ?_, ?_⟩
  · obtain ⟨hfirst, hlast, -⟩ := (mem_probing hle).mp hport
    exact ⟨hfirst, hlast⟩
  · rw [mem_probing hle]
    simp only [not_and, not_le]

theorem hashed_candidates_avoid_port_3000 :
    3000 ∉ buildHashedPortCandidates 3000 (codes "network-a") 20 53000 59999 :=
  (hashed_candidates_avoid_port_iff 3000 (codes "network-a") 20 53000 59999 (by decide)).2.2.2.mpr fun hfirst =>
    absurd hfirst (by decide)

/-- A logical port in the virtual range is among its own candidates. -/
theorem logical_port_is_candidate :
    buildHashedPortCandidates 53000 (codes "network-a") 1 53000 53001 = [53001, 53000] := by
  decide +kernel

end Node

/-! ## Agreement -/

/-- When the two implementations agree: neither has a candidate, or the count of candidates does not overflow, both
bounds are given and the slots are the same. -/
def HashedAgree (input : AllocateInput) (requestedPort : Nat) (scope : List Nat) : Prop :=
  ¬ VirtualRangeOk (virtualFirst input) (virtualLast input) ∨ input.scanRange < 0 ∨
    (input.scanRange + 1 < 2 ^ 31 ∧ 0 < input.virtualStart ∧ 0 < input.virtualEnd ∧
      SameSlot (hashText (hashInput input)) (Node.hashText (scope ++ 58 :: Node.decimal requestedPort))
        input.virtualStart.toNat input.virtualEnd.toNat)

section Agreement

variable {input : AllocateInput} {requestedPort : Nat} {scope : List Nat}

def nodeCandidates (input : AllocateInput) (requestedPort : Nat) (scope : List Nat) : List Int :=
  ((Node.routeHashedCandidates requestedPort scope input.scanRange input.virtualStart input.virtualEnd).getD []).map
    Nat.cast

lemma node_checks_iff : (¬ (!Node.isValidPort input.virtualStart.toNat ∨ !Node.isValidPort input.virtualEnd.toNat ∨
      input.virtualEnd < input.virtualStart)) ↔
    VirtualRangeOk (virtualFirst input) (virtualLast input) ∧ 0 < input.virtualStart ∧ 0 < input.virtualEnd := by
  unfold VirtualRangeOk virtualFirst virtualLast Native.isValidPort Node.isValidPort
  simp only [Bool.not_eq_true', decide_eq_false_iff_not, decide_eq_true_eq, not_or, not_not, not_lt]
  constructor
  · rintro ⟨hfirst, hlast, hle⟩
    have hstart : ¬ input.virtualStart ≤ 0 := by omega
    have hend : ¬ input.virtualEnd ≤ 0 := by omega
    rw [if_neg hstart, if_neg hend]
    omega
  · rintro ⟨hok, hstart, hend⟩
    rw [if_neg (not_le.mpr hstart), if_neg (not_le.mpr hend)] at hok
    omega

lemma nodeCandidates_of_not_ok (h : ¬ (VirtualRangeOk (virtualFirst input) (virtualLast input) ∧
    0 < input.virtualStart ∧ 0 < input.virtualEnd)) : nodeCandidates input requestedPort scope = [] := by
  unfold nodeCandidates Node.routeHashedCandidates
  rw [if_pos (not_not.mp (mt node_checks_iff.mp h))]
  rfl

lemma nodeCandidates_eq (hrange : VirtualRangeOk (virtualFirst input) (virtualLast input))
    (hstart : 0 < input.virtualStart) (hend : 0 < input.virtualEnd) :
    nodeCandidates input requestedPort scope = if input.scanRange < 0 then [] else
      (probing (Node.hashText (scope ++ 58 :: Node.decimal requestedPort)) input.scanRange.toNat
        input.virtualStart.toNat input.virtualEnd.toNat).map Nat.cast := by
  unfold nodeCandidates Node.routeHashedCandidates
  rw [if_neg (node_checks_iff.mpr ⟨hrange, hstart, hend⟩)]
  split
  · rfl
  · rfl

variable (available : Int → Bool)

/-- The same sequence of probes, with the count of the native candidates defined. -/
def SameProbes (input : AllocateInput) (requestedPort : Nat) (scope : List Nat) : Prop :=
  (definedCandidates input).map (probed available) = some (probed available (nodeCandidates input requestedPort scope))

lemma probed_probing_ne_nil (hash : UInt32) (scanRange first last : Nat) :
    probed available ((probing hash scanRange first last).map Nat.cast) ≠ [] := by
  intro hnil
  have hhead := congrArg List.head? hnil
  rw [head?_probed, head?_map, head?_probing] at hhead
  cases hhead

lemma sameProbes_iff : SameProbes available input requestedPort scope ↔ HashedAgree input requestedPort scope := by
  unfold SameProbes HashedAgree definedCandidates
  by_cases hrange : VirtualRangeOk (virtualFirst input) (virtualLast input)
  · rw [hashedCandidates_eq hrange]
    by_cases hscan : input.scanRange < 0
    · -- neither has a candidate
      have hnode : nodeCandidates input requestedPort scope = [] := by
        by_cases hgiven : 0 < input.virtualStart ∧ 0 < input.virtualEnd
        · rw [nodeCandidates_eq hrange hgiven.1 hgiven.2, if_pos hscan]
        · exact nodeCandidates_of_not_ok fun h => hgiven h.2
      rw [if_neg (by omega), if_pos hscan, hnode]
      exact iff_of_true rfl (.inr (.inl hscan))
    · rw [if_neg hscan]
      by_cases hoverflow : 2 ^ 31 ≤ input.scanRange + 1
      · rw [if_pos ⟨hrange, hoverflow⟩]
        refine iff_of_false (Option.some_ne_none _).symm ?_
        rintro (h | h | h)
        · exact h hrange
        · exact hscan h
        · omega
      · rw [if_neg fun h => hoverflow h.2, Option.map_some, Option.some.injEq]
        by_cases hgiven : 0 < input.virtualStart ∧ 0 < input.virtualEnd
        · have hfirst : virtualFirst input = input.virtualStart := if_neg (not_le.mpr hgiven.1)
          have hlast : virtualLast input = input.virtualEnd := if_neg (not_le.mpr hgiven.2)
          rw [nodeCandidates_eq hrange hgiven.1 hgiven.2, if_neg hscan, hfirst, hlast, probed_probing_iff]
          constructor
          · exact fun hslot => .inr (.inr ⟨not_le.mp hoverflow, hgiven.1, hgiven.2, hslot⟩)
          rintro (h | h | h)
          · exact absurd (hfirst ▸ hlast ▸ hrange) h
          · exact absurd h hscan
          · exact h.2.2.2
        · rw [nodeCandidates_of_not_ok fun h => hgiven h.2]
          refine iff_of_false (probed_probing_ne_nil available _ _ _ _) ?_
          rintro (h | h | h)
          · exact h hrange
          · exact hscan h
          · exact hgiven ⟨h.2.1, h.2.2.1⟩
  · rw [if_neg fun h => hrange h.1, hashedCandidates_of_not_ok hrange, nodeCandidates_of_not_ok fun h => hrange h.1]
    exact iff_of_true rfl (.inl hrange)

lemma SameProbes.selected {available : Int → Bool} (h : SameProbes available input requestedPort scope) :
    (hashedCandidates input).find? available = (nodeCandidates input requestedPort scope).find? available := by
  unfold SameProbes definedCandidates at h
  split at h
  next => cases h
  next =>
    have hprobed := congrArg (List.find? available) (Option.some.inj h)
    rwa [find?_probed, find?_probed] at hprobed

end Agreement

/-! ## Texts -/

lemma native_hashText_eq (t : Text) : hashText t = Node.hashText (octets t) := by
  have hunit : ∀ c : UInt8, c.toUInt32 = UInt32.ofNat c.toNat := by
    intro c
    apply UInt32.toNat_inj.mp
    rw [UInt8.toNat_toUInt32, UInt32.toNat_ofNat_of_lt' (lt_trans c.toNat_lt (by decide))]
  unfold hashText Node.hashText octets
  simp only [foldl_map, hunit]

lemma octets_append (s t : Text) : octets (s ++ t) = octets s ++ octets t := map_append

lemma octets_decimal (n : Nat) : octets (decimal n) = Node.decimal n := by
  unfold octets decimal Node.decimal
  rw [map_map]
  refine map_congr_left fun c hc => ?_
  have hdigit := toNat_of_mem_toDigits hc
  rw [Function.comp_apply, UInt8.toNat_ofNat_of_lt' (lt_of_le_of_lt hdigit.2 (by decide))]

/-- The scope of C `pm_route_hashed`. -/
def Native.hashScope (input : AllocateInput) : Text := if input.networkId = [] then input.cwd else input.networkId

lemma sameSlot_of_ascii {input : AllocateInput} {requestedPort : Nat} {scope : List Nat}
    (hascii : ∀ c ∈ scope, c < 0x80) (hholds : hashScope input = toText (Utf8.encode scope))
    (hfits : scope.length < PM_TEXT) (hport : requestedPort ≤ 65535) (first last : Nat) :
    SameSlot (hashText (hashInput { input with requestedPort := requestedPort }))
      (Node.hashText (scope ++ 58 :: Node.decimal requestedPort)) first last := by
  rw [Utf8.encode_ascii hascii] at hholds
  have hdigits : (decimal (requestedPort : Int)).length ≤ 10 := length_decimal_le (by omega) (by omega)
  have hlength : (toText scope).length = scope.length := length_map _
  have hinput : hashInput { input with requestedPort := requestedPort } =
      toText scope ++ 58 :: decimal requestedPort := by
    have hcopy : truncate (PM_TEXT + PM_SMALL) (toText scope) = toText scope :=
      truncate_of_length_lt (by rw [hlength]; omega)
    have htext : hashInput { input with requestedPort := requestedPort } = truncate (PM_TEXT + PM_SMALL + 32)
        (truncate (PM_TEXT + PM_SMALL) (hashScope input) ++ 58 :: decimal requestedPort) := rfl
    rw [htext, hholds, hcopy]
    refine truncate_of_length_lt ?_
    rw [length_append, length_cons, hlength]
    omega
  unfold SameSlot
  rw [hinput, native_hashText_eq, octets_append, octets_toText (fun c hc => lt_trans (hascii c hc) (by decide)),
    octets_cons, octets_decimal]
  rfl

/-- For any answers to its probes, the native daemon probes the ports the Node daemon probes and selects the same one
exactly when they have no candidate or the same slot in the range that both were given; for ASCII scopes the slots
are the same. -/
theorem hashed_routing_agrees_iff (os : Os) (s : AgentState) (input : AllocateInput) (requestedPort : Nat)
    (scope : List Nat) (available : Int → Bool)
    (hanswers : Answers os input.host available s (hashedCandidates { input with requestedPort := requestedPort })) :
    ((SameProbes available { input with requestedPort := requestedPort } requestedPort scope ∧
        (routeHashed os s { input with requestedPort := requestedPort }).1 =
          ((nodeCandidates input requestedPort scope).find? available).getD 0) ↔
      HashedAgree { input with requestedPort := requestedPort } requestedPort scope) ∧
    ((∀ c ∈ scope, c < 0x80) → hashScope input = toText (Utf8.encode scope) → scope.length < PM_TEXT →
      requestedPort ≤ 65535 → ∀ first last,
      SameSlot (hashText (hashInput { input with requestedPort := requestedPort }))
        (Node.hashText (scope ++ 58 :: Node.decimal requestedPort)) first last) := by
  refine ⟨⟨fun h => (sameProbes_iff available).mp h.1, fun hagree => ?_⟩,
    fun hascii hholds hfits hport first last => sameSlot_of_ascii hascii hholds hfits hport first last⟩
  have hprobes := (sameProbes_iff available).mpr hagree
  refine ⟨hprobes, ?_⟩
  have hselected := hprobes.selected
  rw [routeHashed, firstAvailable_eq hanswers, hselected]
  rfl

def sampleInput (networkId : Text) : AllocateInput where
  name := []
  command := []
  cwd := ascii "."
  host := ascii "localhost"
  actualHost := ascii "localhost"
  networkId := networkId
  experimentalRouteOwnershipMode := []
  terminalSessionId := []
  processGroupId := 0
  routeDirection := ascii "listen"
  compactResponse := false
  requestedPort := 3000
  scanRange := 2
  scanDirection := ascii "up"
  routingMode := ascii "hashed"
  virtualStart := 53000
  virtualEnd := 59999

theorem hashed_routing_agrees_in_network_a :
    SameProbes (fun _ => true) (sampleInput (ascii "network-a")) 3000 (codes "network-a") ∧
      (routeHashed lineOs (initialState 1) (sampleInput (ascii "network-a"))).1 =
        ((nodeCandidates (sampleInput (ascii "network-a")) 3000 (codes "network-a")).find? fun _ => true).getD 0 := by
  have hagrees := hashed_routing_agrees_iff lineOs (initialState 1) (sampleInput (ascii "network-a")) 3000
    (codes "network-a") (fun _ => true) (by decide +kernel)
  refine hagrees.1.mpr (.inr (.inr ⟨by decide, by decide, by decide, ?_⟩))
  exact hagrees.2 (by decide) (by decide +kernel) (by decide) (by decide) _ _

/-- The scope is U+00E9: two bytes and one unit. -/
theorem accented_scope_probed_differently :
    hashScope (sampleInput [0xC3, 0xA9]) = toText (Utf8.encode [0xE9]) ∧
      (definedCandidates (sampleInput [0xC3, 0xA9])).map (probed fun _ => true) = some [58922] ∧
      probed (fun _ => true) (nodeCandidates (sampleInput [0xC3, 0xA9]) 3000 [0xE9]) = [53937] := by
  decide +kernel

end PortManager
