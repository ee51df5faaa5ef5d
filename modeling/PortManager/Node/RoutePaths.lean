import PortManager.Base.CText
import PortManager.Base.JsonText
import PortManager.Base.PosixPath
import PortManager.Base.Utf8

/-!
# Route file paths of the extension

Embeds the path builders of `src/agent/route-table.ts` and the identity check of a network
(`networkStorageKey` of `src/core/networks/network-identity.ts`). A JavaScript string is the list of its
UTF-16 code units.

All builders put a suffix between the stem and the extension of the base path. Two networks or endpoints
share a file exactly when their suffixes are the same text, which the replacement of characters, the cut
at 120 units and the separator inside an id all allow.
-/

namespace PortManager.Node
open PosixPath JsonText List Option

instance lawfulBEqUnits : LawfulBEq (List Nat) := inferInstance

/-- The characters `String.prototype.trim` removes. -/
def isSpaceUnit (c : Nat) : Bool :=
  (9 ≤ c && c ≤ 13) || c == 0x20 || c == 0xA0 || c == 0x1680 || (0x2000 ≤ c && c ≤ 0x200A) || c == 0x2028 ||
    c == 0x2029 || c == 0x202F || c == 0x205F || c == 0x3000 || c == 0xFEFF

def trim (s : List Nat) : List Nat := (s.dropWhile isSpaceUnit).rdropWhile isSpaceUnit

/-- A number in a template literal; ports are natural numbers. -/
def decimal (n : Nat) : List Nat := (Nat.toDigits 10 n).map Char.toNat

/-! ## Network ids -/

def MAX_NETWORK_ID_BYTES : Nat := 124

/-- `bytes.toString("hex")` -/
def hex (bytes : List Nat) : List Nat :=
  bytes.flatMap fun b => [(Nat.digitChar (b / 16)).toNat, (Nat.digitChar (b % 16)).toNat]

variable (networkId : List Nat)

/-- `networkStorageKey`; `none` when it throws. -/
def networkStorageKey : Option (List Nat) :=
  let bytes := Utf8.encode networkId
  if bytes.length = 0 ∨ MAX_NETWORK_ID_BYTES < bytes.length ∨ 0 ∈ networkId ∨ Utf8.decode bytes ≠ networkId then
    none
  else some (codes "id-" ++ hex bytes)

/-! ## Path builders -/

/-- The class `[a-zA-Z0-9_.-]`. -/
def isScopeUnit (c : Nat) : Bool :=
  (97 ≤ c && c ≤ 122) || (65 ≤ c && c ≤ 90) || (48 ≤ c && c ≤ 57) || c == 95 || c == 46 || c == 45

def sanitizeRouteTableScope (value : List Nat) : List Nat :=
  let sanitized := (value.map fun c => if isScopeUnit c then c else 95).take 120
  if sanitized = [] then codes "network" else sanitized

def routeTableExtension (base : List Nat) : List Nat :=
  if (parse base).ext = [] then codes ".json" else (parse base).ext

/-- What all builders end with: a suffix behind the stem of the base path. -/
def suffixedPath (base suffix : List Nat) : List Nat :=
  join [(parse base).dir, (parse base).name ++ (suffix ++ routeTableExtension base)]

def getNetworkRouteTablePath (networkId base : List Nat) : List Nat :=
  suffixedPath base (45 :: sanitizeRouteTableScope networkId)

/-- `getRouteTablePathForNetwork`; `networkId` is `none` for `undefined`. -/
def getRouteTablePathForNetwork (networkId : Option (List Nat)) (base : List Nat) : List Nat :=
  match networkId.map trim with
  | none => base
  | some [] => base
  | some (c :: id) => getNetworkRouteTablePath (c :: id) base

def getRouteTablePathForLogicalPort (logicalPort : Nat) (networkId : Option (List Nat)) (base : List Nat) :
    List Nat :=
  suffixedPath (getRouteTablePathForNetwork networkId base) (codes "-port-" ++ decimal logicalPort)

def getRouteTablePathForComposeClaimPort (port : Nat) (base : List Nat) : List Nat :=
  suffixedPath base (codes "-compose-claim-port-" ++ decimal port)

def getRouteTablePathForGatewayClaimPort (port : Nat) (base : List Nat) : List Nat :=
  suffixedPath base (codes "-mux-claim-port-" ++ decimal port)

/-! ## The base path -/

lemma slash_not_mem_parse (base : List Nat) : 47 ∉ (parse base).name ∧ 47 ∉ (parse base).ext := by
  unfold parse
  refine slash_not_mem_splitName _ fun hmem => ?_
  have hslash := mem_rtakeWhile_imp hmem
  exact absurd rfl (of_decide_eq_true hslash)

lemma routeTableExtension_eq (base : List Nat) : ∃ ext, routeTableExtension base = 46 :: ext ∧ 46 ∉ ext ∧ 47 ∉ ext := by
  unfold routeTableExtension
  split
  · exact ⟨codes "json", rfl, by decide, by decide⟩
  next hne =>
    rcases splitName_ext _ _ with hnone | ⟨ext, hext, hdot⟩
    · exact absurd hnone hne
    refine ⟨ext, hext, hdot, fun hslash => (slash_not_mem_parse base).2 ?_⟩
    rw [show (parse base).ext = 46 :: ext from hext]
    exact mem_cons_of_mem _ hslash

section Suffixes

variable (base : List Nat) {suffix : List Nat} (hsuffix : 47 ∉ suffix)
include hsuffix

lemma plain_suffixed : PosixPath.Plain ((parse base).name ++ (45 :: suffix ++ routeTableExtension base)) := by
  obtain ⟨ext, hext, -, hslash⟩ := routeTableExtension_eq base
  have hhyphen : 45 ∈ (parse base).name ++ (45 :: suffix ++ routeTableExtension base) := by simp
  refine ⟨ne_nil_of_mem hhyphen, fun h => ?_, fun h => ?_, ?_⟩
  · rw [h] at hhyphen
    revert hhyphen
    decide
  · rw [h] at hhyphen
    revert hhyphen
    decide
  · have hname := (slash_not_mem_parse base).1
    simp [hext, hname, hsuffix, hslash]

lemma parse_suffixedPath :
    (parse (suffixedPath base (45 :: suffix))).name = (parse base).name ++ 45 :: suffix ∧
      routeTableExtension (suffixedPath base (45 :: suffix)) = routeTableExtension base := by
  have hplain := plain_suffixed base hsuffix
  have hparse := parse_join_file (parse base).dir hplain
  obtain ⟨ext, hext, hdot, -⟩ := routeTableExtension_eq base
  have hfile : (parse base).name ++ (45 :: suffix ++ routeTableExtension base) =
      ((parse base).name ++ 45 :: suffix) ++ 46 :: ext := by
    rw [hext]
    simp
  have hsplit : splitName false (((parse base).name ++ 45 :: suffix) ++ 46 :: ext) = _ :=
    splitName_append false (by simp) hdot (hfile ▸ hplain.ne_dots)
  rw [hfile, hsplit, Prod.mk.injEq, ← hfile] at hparse
  refine ⟨hparse.1, ?_⟩
  rw [routeTableExtension, if_neg]
  · exact hparse.2.trans hext.symm
  · exact fun h => cons_ne_nil _ _ (hparse.2.symm.trans h)

lemma suffixedPath_suffixedPath {more : List Nat} (hmore : 47 ∉ more) :
    suffixedPath (suffixedPath base (45 :: suffix)) (45 :: more) =
      suffixedPath base (45 :: suffix ++ 45 :: more) := by
  obtain ⟨hname, hext⟩ := parse_suffixedPath base hsuffix
  have hplain := plain_suffixed base hsuffix
  have hlonger : PosixPath.Plain ((parse base).name ++ (45 :: (suffix ++ 45 :: more) ++ routeTableExtension base)) :=
    plain_suffixed base (by simp [hsuffix, hmore])
  have hfile : (parse base).name ++ (45 :: (suffix ++ 45 :: more) ++ routeTableExtension base) =
      (parse base).name ++ 45 :: suffix ++ (45 :: more ++ routeTableExtension base) := by simp
  rw [suffixedPath, hname, hext, ← hfile]
  exact join_parse_dir (parse base).dir hplain hlonger

lemma suffixedPath_injective {other : List Nat} (hother : 47 ∉ other)
    (h : suffixedPath base (45 :: suffix) = suffixedPath base (45 :: other)) : suffix = other := by
  have hname := congrArg (fun path => (parse path).name) h
  simp only [(parse_suffixedPath base hsuffix).1, (parse_suffixedPath base hother).1,
    append_cancel_left_eq, List.cons.injEq, true_and] at hname
  exact hname

lemma suffixedPath_ne_base : suffixedPath base (45 :: suffix) ≠ base := by
  intro h
  have hname := congrArg (fun path => (parse path).name.length) h
  simp only [(parse_suffixedPath base hsuffix).1, length_append, length_cons] at hname
  omega

omit hsuffix

end Suffixes

/-! ## Suffixes of networks and endpoints -/

lemma mem_decimal {n c : Nat} (h : c ∈ decimal n) : 48 ≤ c ∧ c ≤ 57 := by
  obtain ⟨digit, hdigit, rfl⟩ := mem_map.mp h
  exact CText.toNat_of_mem_toDigits hdigit

lemma decimal_injective {m n : Nat} (h : decimal m = decimal n) : m = n := by
  have hdigits : Nat.toDigits 10 m = Nat.toDigits 10 n :=
    map_injective_iff.mpr (fun a b hab => Char.toNat_inj.mp hab) h
  refine Nat.repr_inj.mp ?_
  rw [Nat.repr, Nat.repr, hdigits]

lemma mem_sanitizeRouteTableScope {value : List Nat} {c : Nat} (h : c ∈ sanitizeRouteTableScope value) :
    isScopeUnit c = true := by
  unfold sanitizeRouteTableScope at h
  simp only at h
  split at h
  · revert c
    decide
  obtain ⟨unit, -, rfl⟩ := mem_map.mp (mem_of_mem_take h)
  split
  next hunit => exact hunit
  next => rfl

def scopeSuffix : List Nat :=
  if trim networkId = [] then [] else 45 :: sanitizeRouteTableScope (trim networkId)

def portSuffix (port : Nat) : List Nat := codes "-port-" ++ decimal port

def routeTablePath (base networkId : List Nat) : Option Nat → List Nat
  | none => getRouteTablePathForNetwork (some networkId) base
  | some port => getRouteTablePathForLogicalPort port (some networkId) base

/-- Two networks or endpoints have the same suffix: the scopes are the same and so are the ports, or one
scope ends like the suffix of the other's port. -/
def SharesFile (port : Option Nat) (networkId' : List Nat) (port' : Option Nat) : Prop :=
  match port, port' with
  | none, none => scopeSuffix networkId = scopeSuffix networkId'
  | some p, some p' => scopeSuffix networkId = scopeSuffix networkId' ∧ p = p'
  | none, some p => scopeSuffix networkId = scopeSuffix networkId' ++ portSuffix p
  | some p, none => scopeSuffix networkId ++ portSuffix p = scopeSuffix networkId'

def routeSuffix (port : Option Nat) : List Nat :=
  scopeSuffix networkId ++ (port.map portSuffix).getD []

lemma scopeSuffix_cases :
    (scopeSuffix networkId = [] ∧ ∀ base, getRouteTablePathForNetwork (some networkId) base = base) ∨
      ∃ scope, scopeSuffix networkId = 45 :: scope ∧ 47 ∉ scope ∧
        ∀ base, getRouteTablePathForNetwork (some networkId) base = suffixedPath base (45 :: scope) := by
  unfold scopeSuffix getRouteTablePathForNetwork
  cases htrim : trim networkId with
  | nil => exact .inl ⟨rfl, fun base => by simp only [map_some, htrim]⟩
  | cons c id =>
    refine .inr ⟨sanitizeRouteTableScope (c :: id), rfl, fun hslash => ?_, fun base => ?_⟩
    · exact absurd (mem_sanitizeRouteTableScope hslash) (by decide)
    · simp only [map_some, htrim]
      rfl

lemma slash_not_mem_append_decimal {text : List Nat} (htext : 47 ∉ text) (port : Nat) : 47 ∉ text ++ decimal port := by
  intro h
  rcases mem_append.mp h with h | h
  · exact htext h
  · have := mem_decimal h
    omega

lemma slash_not_mem_portSuffix (port : Nat) : ∃ rest, portSuffix port = 45 :: rest ∧ 47 ∉ rest :=
  ⟨codes "port-" ++ decimal port, rfl, slash_not_mem_append_decimal (by decide) port⟩

lemma routeTablePath_eq (base networkId : List Nat) (port : Option Nat) :
    (routeSuffix networkId port = [] ∧ routeTablePath base networkId port = base) ∨
      ∃ rest, routeSuffix networkId port = 45 :: rest ∧ 47 ∉ rest ∧
        routeTablePath base networkId port = suffixedPath base (45 :: rest) := by
  rcases scopeSuffix_cases networkId with ⟨hscope, hpath⟩ | ⟨scope, hscope, hslash, hpath⟩
  · cases port with
    | none => exact .inl ⟨by rw [routeSuffix, hscope]; rfl, hpath base⟩
    | some port =>
      obtain ⟨rest, hrest, hslash⟩ := slash_not_mem_portSuffix port
      refine .inr ⟨rest, ?_, hslash, ?_⟩
      · rw [routeSuffix, hscope]
        exact hrest
      show getRouteTablePathForLogicalPort port (some networkId) base = _
      rw [getRouteTablePathForLogicalPort, hpath, ← hrest]
      rfl
  · cases port with
    | none => exact .inr ⟨scope, by rw [routeSuffix, hscope]; simp, hslash, hpath base⟩
    | some port =>
      obtain ⟨rest, hrest, hslash'⟩ := slash_not_mem_portSuffix port
      refine .inr ⟨scope ++ 45 :: rest, ?_, by simp [hslash, hslash'], ?_⟩
      · rw [routeSuffix, hscope, map_some, getD_some, hrest]
        rfl
      show getRouteTablePathForLogicalPort port (some networkId) base = _
      rw [getRouteTablePathForLogicalPort, hpath, show codes "-port-" ++ decimal port = 45 :: rest from hrest,
        suffixedPath_suffixedPath base hslash hslash']
      rfl

lemma append_portSuffix_injective {scope scope' : List Nat} {port port' : Nat}
    (h : scope ++ portSuffix port = scope' ++ portSuffix port') : scope = scope' ∧ port = port' := by
  have hdigits : ∀ p, ∀ c ∈ decimal p, decide (c ≠ 45) = true := by
    intro p c hc
    have := mem_decimal hc
    exact decide_eq_true (by omega)
  -- the digits are what follows the last hyphen
  have hlast : ∀ (scope : List Nat) p, (scope ++ portSuffix p).rtakeWhile (· ≠ 45) = decimal p := by
    intro scope p
    have hsplit : scope ++ portSuffix p = ((scope ++ codes "-port") ++ [45]) ++ decimal p := by
      simp [portSuffix, codes]
    rw [hsplit, rtakeWhile_append (hdigits p), rtakeWhile_concat_neg _ _ _ (by simp), nil_append]
  have hport : port = port' := decimal_injective (by rw [← hlast scope, h, hlast])
  subst hport
  exact ⟨append_cancel_right h, rfl⟩

lemma routeSuffix_eq_iff (networkId networkId' : List Nat) (port port' : Option Nat) :
    routeSuffix networkId port = routeSuffix networkId' port' ↔ SharesFile networkId port networkId' port' := by
  unfold routeSuffix
  cases port with
  | none =>
    cases port' with
    | none => simp [SharesFile]
    | some p => simp [SharesFile]
  | some p =>
    cases port' with
    | none => simp [SharesFile]
    | some p' =>
      simp only [map_some, getD_some, SharesFile]
      exact ⟨append_portSuffix_injective, fun ⟨hscope, hport⟩ => by rw [hscope, hport]⟩

/-- Two networks or endpoints have different files exactly when they have different suffixes. -/
theorem routeTablePath_ne_iff (base networkId networkId' : List Nat) (port port' : Option Nat) :
    routeTablePath base networkId port ≠ routeTablePath base networkId' port' ↔
      ¬ SharesFile networkId port networkId' port' := by
  rw [← routeSuffix_eq_iff, Ne, not_iff_not]
  rcases routeTablePath_eq base networkId port with ⟨hsuffix, hpath⟩ | ⟨rest, hsuffix, hslash, hpath⟩ <;>
    rcases routeTablePath_eq base networkId' port' with ⟨hsuffix', hpath'⟩ | ⟨rest', hsuffix', hslash', hpath'⟩ <;>
    rw [hsuffix, hsuffix', hpath, hpath']
  · exact ⟨fun _ => rfl, fun _ => rfl⟩
  · exact ⟨fun h => absurd h.symm (suffixedPath_ne_base base hslash'), fun h => by cases h⟩
  · exact ⟨fun h => absurd h (suffixedPath_ne_base base hslash), fun h => by cases h⟩
  · exact ⟨fun h => congrArg _ (suffixedPath_injective base hslash hslash' h), fun h => congrArg _ h⟩

/-- Ids with different keys share files: a replaced character, and a port inside an id. -/
theorem distinct_networks_share_file :
    networkStorageKey (codes "a b") ≠ none ∧ networkStorageKey (codes "a_b") ≠ none ∧
      routeTablePath (codes "/r/routes.json") (codes "a b") none =
        routeTablePath (codes "/r/routes.json") (codes "a_b") none ∧
      networkStorageKey (codes "a") ≠ none ∧ networkStorageKey (codes "a-port-1") ≠ none ∧
      routeTablePath (codes "/r/routes.json") (codes "a") (some 1) =
        routeTablePath (codes "/r/routes.json") (codes "a-port-1") none := by
  decide +kernel

end PortManager.Node
