import PortManager.Base.Base64
import PortManager.Base.CNumbers
import PortManager.Base.SplitText

/-!
# The command that relaunches a child

The extension writes a relaunch as one line: numbers in decimal and strings in base 64, separated by tabs. The hook cuts the line into
tokens, and the tokenizer skips empty fields, so an empty string shifts everything after it. `respawn_roundtrip_iff` says for which requests
the hook relaunches what was asked for.
-/

namespace PortManager.Hook

open CText List Base64

/-! ## The extension's line -/

structure RespawnRequest where
  oldPid : Nat
  networkId : Text
  cwd : Text
  argv : List Text
  env : List Text
  oldPid_pos : 0 < oldPid
  oldPid_lt : oldPid < 2 ^ 31
  networkId_length : 1 ≤ networkId.length ∧ networkId.length ≤ 127
  networkId_nulFree : (0 : UInt8) ∉ networkId
  cwd_fits : cwd.length < 1024
  cwd_nulFree : (0 : UInt8) ∉ cwd
  argv_ne_nil : argv ≠ []
  argv_length : argv.length ≤ 4096
  env_length : env.length ≤ 65536
  strings : ∀ string ∈ argv ++ env, (0 : UInt8) ∉ string ∧ string.length < 65536

variable (request : RespawnRequest)

def respawnFields : List Text :=
  decimal request.oldPid :: Base64.encode request.networkId :: Base64.encode request.cwd :: decimal request.argv.length ::
    (request.argv.map Base64.encode ++ decimal request.env.length :: request.env.map Base64.encode)

def buildEscapedRespawnLine : Text := [9].intercalate (ascii "RESPAWN" :: respawnFields request)

/-! ## The hook's reading of it -/

/-- `pm_base64_decode` with what it has written so far. -/
def decodeInto (capacity accumulator bits : Nat) (output : Text) : Text → Option Text
  | [] => if capacity ≤ output.length then none else some output
  | c :: rest =>
    match Base64.sextet c with
    | none => decodeInto capacity accumulator bits output rest
    | some value =>
      let accumulator := (accumulator * 64 + value) % 2 ^ 32
      if 8 ≤ bits + 6 then
        if capacity ≤ output.length + 1 then none
        else decodeInto capacity accumulator (bits + 6 - 8) (output ++ [UInt8.ofNat (accumulator / 2 ^ (bits + 6 - 8))]) rest
      else decodeInto capacity accumulator (bits + 6) output rest

/-- The C string of the bytes that were written. -/
def base64Decode (input : Text) (capacity : Nat) : Option Text := (decodeInto capacity 0 0 [] input).map fun bytes => bytes.takeWhile (· ≠ 0)

/-- What `strtok_r` gives one after the other. -/
def tokens (fields : Text) : List Text := (fields.splitOn 9).filter fun field => field ≠ []

def number (token : Text) : Int := (strtol token).getD 0

/-- A number of strings from the next tokens, and the tokens after them. -/
def readStrings : Nat → List Text → Option (List Text × List Text)
  | 0, rest => some ([], rest)
  | _ + 1, [] => none
  | n + 1, token :: rest =>
    match base64Decode token 65536, readStrings n rest with
    | some string, some (strings, rest) => some (string :: strings, rest)
    | _, _ => none

def preloadAssignment : Text := ascii "DYLD_INSERT_LIBRARIES="

/-- The environment with the preload library, which is added if no entry has one. -/
def withPreload (hint : Option Text) (envp : List Text) : List Text :=
  if envp.any preloadAssignment.isPrefixOf then envp
  else
    match hint with
    | some (c :: value) => envp ++ [preloadAssignment ++ c :: value]
    | _ => envp

/-- A relaunch: the process it replaces, and the arguments of `posix_spawn`. -/
structure Respawn where
  oldPid : Int
  cwd : Text
  argv : List Text
  envp : List Text
deriving DecidableEq

/-- `pm_control_handle_respawn` up to the spawn, with the network id of the process and the library it preloads. -/
def controlHandleRespawn (own hint : Option Text) (fields : Text) : Option Respawn :=
  match tokens fields with
  | oldPid :: network :: cwd :: argc :: rest =>
    match base64Decode network 128, base64Decode cwd 1024 with
    | some network, some cwd =>
      if own = some network ∧ network ≠ [] ∧ 0 < number argc ∧ number argc ≤ 4096 then
        match readStrings (number argc).toNat rest with
        | some (argv, envc :: rest) =>
          if 0 ≤ number envc ∧ number envc ≤ 65536 then
            (readStrings (number envc).toNat rest).map fun env => ⟨number oldPid, cwd, argv, withPreload hint env.1⟩
          else none
        | _ => none
      else none
    | _, _ => none
  | _ => none

def respawnCommand : Text := ascii "RESPAWN\t"

def controlDispatchLine (own hint : Option Text) (line : Text) : Option Respawn :=
  if respawnCommand.isPrefixOf line then controlHandleRespawn own hint (line.drop respawnCommand.length) else none

/-! ## Decoding -/

lemma decodeInto_eq (capacity accumulator bits : Nat) (output input : Text) :
    decodeInto capacity accumulator bits output input =
      if output.length + (collect accumulator bits input).length < capacity then some (output ++ collect accumulator bits input)
      else none := by
  induction input generalizing accumulator bits output with
  | nil =>
    simp only [decodeInto, collect, length_nil, add_zero, append_nil]
    split
    · next h => rw [if_neg (by omega)]
    · next h => rw [if_pos (by omega)]
  | cons c rest ih =>
    rw [decodeInto, collect]
    cases sextet c with
    | none => exact ih _ _ _
    | some value =>
      simp only
      split
      · split
        · next hfull => rw [if_neg (by simp; omega)]
        · rw [ih]
          simp [add_assoc, add_comm 1]
      · exact ih _ _ _

variable {t fields : Text} {strings : List Text} {own : Option Text}

lemma takeWhile_of_nulFree (h : (0 : UInt8) ∉ t) : t.takeWhile (· ≠ 0) = t := by
  rw [takeWhile_eq_self_iff]
  intro c hc
  simp only [decide_eq_true_eq]
  rintro rfl
  exact h hc

lemma base64Decode_encode {capacity : Nat} (hfits : t.length < capacity) (hfree : (0 : UInt8) ∉ t) :
    base64Decode (encode t) capacity = some t := by
  rw [base64Decode, decodeInto_eq, collect_encode, length_nil, zero_add, if_pos hfits, Option.map_some, nil_append,
    takeWhile_of_nulFree hfree]

lemma base64Decode_one : base64Decode (decimal 1) 65536 = some [] := by decide +kernel

/-! ## Reading strings -/

def Spells (token string : Text) : Prop := base64Decode token 65536 = some string

lemma readStrings_eq_some_iff {n : Nat} {tokens rest : List Text} :
    readStrings n tokens = some (strings, rest) ↔ ∃ first, tokens = first ++ rest ∧ first.length = n ∧ List.Forall₂ Spells first strings := by
  induction n generalizing tokens strings with
  | zero =>
    rw [readStrings]
    constructor
    · rintro ⟨⟩
      exact ⟨[], rfl, rfl, .nil⟩
    rintro ⟨first, rfl, hlength, hspells⟩
    obtain rfl := eq_nil_of_length_eq_zero hlength
    cases hspells
    rfl
  | succ n ih =>
    cases tokens with
    | nil =>
      rw [readStrings]
      refine iff_of_false nofun ?_
      rintro ⟨first, htokens, hlength, -⟩
      obtain ⟨rfl, -⟩ := append_eq_nil_iff.mp htokens.symm
      cases hlength
    | cons token tokens =>
      rw [readStrings]
      constructor
      · intro h
        split at h
        · next string strings' rest' hstring hstrings =>
          cases h
          obtain ⟨first, rfl, rfl, hspells⟩ := ih.mp hstrings
          exact ⟨token :: first, rfl, rfl, .cons hstring hspells⟩
        · cases h
      · rintro ⟨first, htokens, hlength, hspells⟩
        cases first with
        | nil => cases hlength
        | cons token' first =>
          rw [cons_append] at htokens
          cases htokens
          cases hspells with
          | cons hstring hspells =>
            have hrest := ih.mpr ⟨first, rfl, Nat.succ.inj hlength, hspells⟩
            rw [show base64Decode token 65536 = some _ from hstring, hrest]

lemma spells_rightUnique : Relator.RightUnique Spells := by
  intro token string string' h h'
  exact Option.mem_unique h h'

variable (h : ∀ string ∈ strings, (0 : UInt8) ∉ string ∧ string.length < 65536)
include h

lemma spells_encode : List.Forall₂ Spells (strings.map encode) strings := by
  induction strings with
  | nil => exact .nil
  | cons string strings ih =>
    obtain ⟨hstring, hstrings⟩ := forall_mem_cons.mp h
    exact .cons (base64Decode_encode hstring.2 hstring.1) (ih hstrings)

lemma eq_of_spells_encode {strings' : List Text}
    (hspells : List.Forall₂ Spells (strings.map encode) strings') : strings' = strings := by
  induction strings generalizing strings' with
  | nil =>
    cases hspells
    rfl
  | cons string strings ih =>
    obtain ⟨hstring, hstrings⟩ := forall_mem_cons.mp h
    cases hspells with
    | cons hfirst hrest =>
      have hdecoded := base64Decode_encode hstring.2 hstring.1
      obtain rfl := Option.mem_unique hfirst hdecoded
      rw [ih hstrings hrest]

omit h

/-! ## The hook's reading, taken apart -/

/-- The tokens of a line that leads to a relaunch. -/
structure Reads (own hint : Option Text) (tokens : List Text) (respawn : Respawn) where
  oldPid : Text
  network : Text
  cwd : Text
  argc : Text
  arguments : List Text
  envc : Text
  environment : List Text
  rest : List Text
  networkId : Text
  env : List Text
  tokens_eq : tokens = oldPid :: network :: cwd :: argc :: (arguments ++ envc :: (environment ++ rest))
  network_eq : base64Decode network 128 = some networkId
  own_eq : own = some networkId ∧ networkId ≠ []
  cwd_eq : base64Decode cwd 1024 = some respawn.cwd
  argc_eq : number argc = arguments.length ∧ 0 < arguments.length ∧ arguments.length ≤ 4096
  arguments_eq : List.Forall₂ Spells arguments respawn.argv
  envc_eq : number envc = environment.length ∧ environment.length ≤ 65536
  environment_eq : List.Forall₂ Spells environment env
  respawn_eq : respawn.oldPid = number oldPid ∧ respawn.envp = withPreload hint env

lemma Reads.handled {hint : Option Text} {respawn : Respawn} (reads : Reads own hint (tokens fields) respawn) :
    controlHandleRespawn own hint fields = some respawn := by
  obtain ⟨oldPid, network, cwd, argc, arguments, envc, environment, rest, networkId, env, htokens, hnetwork, hown, hcwd, hargc, harguments, henvc,
    henvironment, hrespawn⟩ := reads
  have hargcNat : (number argc).toNat = arguments.length := by omega
  have henvcNat : (number envc).toNat = environment.length := by omega
  have hargv : readStrings arguments.length (arguments ++ envc :: (environment ++ rest)) = some (respawn.argv, envc :: (environment ++ rest)) :=
    readStrings_eq_some_iff.mpr ⟨arguments, rfl, rfl, harguments⟩
  have henv : readStrings environment.length (environment ++ rest) = some (env, rest) :=
    readStrings_eq_some_iff.mpr ⟨environment, rfl, rfl, henvironment⟩
  have hchecked : own = some networkId ∧ networkId ≠ [] ∧ 0 < number argc ∧ number argc ≤ 4096 := ⟨hown.1, hown.2, by omega, by omega⟩
  have hcounted : 0 ≤ number envc ∧ number envc ≤ 65536 := by omega
  simp only [controlHandleRespawn, htokens, hnetwork, hcwd, if_pos hchecked, hargcNat, hargv, if_pos hcounted, henvcNat, henv, Option.map_some]
  rw [← hrespawn.1, ← hrespawn.2]

lemma exists_reads {hint : Option Text} {respawn : Respawn} (h : controlHandleRespawn own hint fields = some respawn) :
    Nonempty (Reads own hint (tokens fields) respawn) := by
  rw [controlHandleRespawn] at h
  split at h
  · next oldPid network cwd argc rest htokens =>
    split at h
    · next networkId cwdText hnetwork hcwd =>
      split at h
      · next hchecked =>
        split at h
        · next argv envc rest' hargv =>
          split at h
          · next hcounted =>
            obtain ⟨⟨env, rest''⟩, henv, rfl⟩ := Option.map_eq_some_iff.mp h
            obtain ⟨arguments, rfl, harguments, hspells⟩ := readStrings_eq_some_iff.mp hargv
            obtain ⟨environment, rfl, henvironment, hspells'⟩ := readStrings_eq_some_iff.mp henv
            exact ⟨⟨oldPid, network, cwd, argc, arguments, envc, environment, rest'', networkId, env, htokens, hnetwork,
              ⟨hchecked.1, hchecked.2.1⟩, hcwd, by omega, hspells, by omega, hspells', ⟨rfl, rfl⟩⟩⟩
          · cases h
        · cases h
      · cases h
    · cases h
  · cases h

/-! ## The tokens of the extension's line -/

lemma tab_notMem_encode (t : Text) : (9 : UInt8) ∉ encode t := by
  intro h
  have hall : (9 : UInt8) ∉ alphabet ∧ (9 : UInt8) ≠ padding := by decide +kernel
  exact (mem_of_mem_encode h).elim hall.1 hall.2

lemma tab_notMem_decimal (k : Nat) : (9 : UInt8) ∉ decimal k := by
  intro h
  exact absurd (isdigit_of_mem_decimal h) (by decide)

lemma tab_notMem_respawnFields : ∀ field ∈ respawnFields request, (9 : UInt8) ∉ field := by
  simp only [respawnFields, forall_mem_cons, forall_mem_append, forall_mem_map]
  exact ⟨tab_notMem_decimal _, tab_notMem_encode _, tab_notMem_encode _, tab_notMem_decimal _, fun _ _ => tab_notMem_encode _,
    tab_notMem_decimal _, fun _ _ => tab_notMem_encode _⟩

def visible (strings : List Text) : List Text := strings.filter fun string => string ≠ []

lemma filter_encode (strings : List Text) :
    (strings.map encode).filter (fun field => field ≠ []) = (visible strings).map encode := by
  rw [filter_map, visible]
  congr 1
  apply filter_congr
  intro string _
  simp only [Function.comp_apply, ne_eq, encode_eq_nil_iff]

lemma tokens_respawnFields :
    tokens ([9].intercalate (respawnFields request)) =
      decimal request.oldPid :: encode request.networkId :: ((visible [request.cwd]).map encode ++
        decimal request.argv.length :: ((visible request.argv).map encode ++
          decimal request.env.length :: (visible request.env).map encode)) := by
  have hsplit : ([9].intercalate (respawnFields request)).splitOn 9 = respawnFields request :=
    (SplitText.splitOn_eq_iff (tab_notMem_respawnFields request) (cons_ne_nil _ _)).mpr rfl
  have hnetwork : encode request.networkId ≠ [] := by
    intro h
    have hlength := request.networkId_length
    rw [encode_eq_nil_iff.mp h, length_nil] at hlength
    omega
  have hcwd : [encode request.cwd].filter (fun field => field ≠ []) = (visible [request.cwd]).map encode :=
    filter_encode [request.cwd]
  rw [tokens, hsplit, respawnFields, filter_cons_of_pos (by simp [decimal_ne_nil]), filter_cons_of_pos (by simp [hnetwork]),
    ← singleton_append (x := encode request.cwd), filter_append, hcwd, filter_cons_of_pos (by simp [decimal_ne_nil]),
    filter_append, filter_encode, filter_cons_of_pos (by simp [decimal_ne_nil]), filter_encode]

lemma controlDispatchLine_build (own hint : Option Text) :
    controlDispatchLine own hint (buildEscapedRespawnLine request) = controlHandleRespawn own hint ([9].intercalate (respawnFields request)) := by
  have hline : buildEscapedRespawnLine request = respawnCommand ++ [9].intercalate (respawnFields request) := by
    rw [buildEscapedRespawnLine, respawnFields, intercalate_cons_cons]
    rfl
  rw [controlDispatchLine, hline, if_pos (by simp), drop_left]

/-! ## What survives -/

def preloadEntry (value : Text) : Text := preloadAssignment ++ value

variable (hint : Option Text) (envp : List Text)

lemma withPreload_cases :
    withPreload hint envp = envp ∨
      ∃ value, value ≠ [] ∧ hint = some value ∧ withPreload hint envp = envp ++ [preloadEntry value] := by
  unfold withPreload
  split
  · exact .inl rfl
  split
  · next c value => exact .inr ⟨c :: value, cons_ne_nil c value, rfl, rfl⟩
  · exact .inl rfl

lemma length_withPreload : envp.length ≤ (withPreload hint envp).length := by
  obtain h | ⟨value, -, -, h⟩ := withPreload_cases hint envp
  · rw [h]
  · rw [h, length_append]
    omega

lemma length_withPreload_le : (withPreload hint envp).length ≤ envp.length + 1 := by
  obtain h | ⟨value, -, -, h⟩ := withPreload_cases hint envp <;> rw [h]
  · omega
  · simp

def NoneEmpty (strings : List Text) : Prop := ∀ string ∈ strings, string ≠ []

lemma visible_eq_self_iff : visible strings = strings ↔ NoneEmpty strings := by
  rw [visible, filter_eq_self]
  simp [NoneEmpty]

lemma length_visible_le (strings : List Text) : (visible strings).length ≤ strings.length := length_filter_le _ _

lemma noneEmpty_of_length (h : strings.length ≤ (visible strings).length) : NoneEmpty strings := by
  have hsame := filter_sublist.eq_of_length_le (h : strings.length ≤ (strings.filter fun string => string ≠ []).length)
  exact visible_eq_self_iff.mp hsame

/-- The request comes through although its last argument is empty: the number of variables is taken for the argument, and the one variable,
the library that the hook would add, for their number. -/
def Coincidence (request : RespawnRequest) : Prop :=
  ∃ arguments value, request.argv = arguments ++ [[]] ∧ NoneEmpty arguments ∧ hint = some value ∧ value ≠ [] ∧ request.env = [preloadEntry value]

def Survives (request : RespawnRequest) : Prop :=
  request.cwd ≠ [] ∧ (NoneEmpty (request.argv ++ request.env) ∨ Coincidence hint request)

def RespawnRequest.respawn : Respawn :=
  ⟨request.oldPid, request.cwd, request.argv, withPreload hint request.env⟩

lemma number_decimal {k : Nat} (h : k < 2 ^ 63) : number (decimal k) = k := by
  have hread : strtol (decimal k ++ []) = some (k : Int) := strtol_decimal h nofun
  rw [append_nil] at hread
  rw [number, hread]
  rfl

lemma number_preloadEntry (value : Text) : number (encode (preloadEntry value)) = 0 := by
  have hstart : encode (preloadEntry value) =
      82 :: 70 :: 108 :: 77 :: encode (ascii "D_INSERT_LIBRARIES=" ++ value) := by
    show encode (68 :: 89 :: 76 :: (ascii "D_INSERT_LIBRARIES=" ++ value)) = _
    rw [encode]
    rfl
  rw [number, hstart]
  rfl

section Reading

variable {hint : Option Text} {request : RespawnRequest}

variable (request)

lemma RespawnRequest.argv_strings : ∀ string ∈ request.argv, (0 : UInt8) ∉ string ∧ string.length < 65536 :=
  fun string h => request.strings string (mem_append_left _ h)

lemma RespawnRequest.env_strings : ∀ string ∈ request.env, (0 : UInt8) ∉ string ∧ string.length < 65536 :=
  fun string h => request.strings string (mem_append_right _ h)

lemma RespawnRequest.decode_networkId :
    base64Decode (encode request.networkId) 128 = some request.networkId ∧ request.networkId ≠ [] := by
  obtain ⟨hpos, hle⟩ := request.networkId_length
  refine ⟨base64Decode_encode (by omega) request.networkId_nulFree, ?_⟩
  intro h
  rw [h, length_nil] at hpos
  omega

variable {request}

lemma visible_cwd (hcwd : request.cwd ≠ []) : visible [request.cwd] = [request.cwd] :=
  visible_eq_self_iff.mpr (by simpa [NoneEmpty] using hcwd)

lemma reads_of_noneEmpty (hcwd : request.cwd ≠ []) (h : NoneEmpty (request.argv ++ request.env)) :
    Nonempty (Reads (some request.networkId) hint (tokens ([9].intercalate (respawnFields request))) (request.respawn hint)) := by
  obtain ⟨hargv, henv⟩ := forall_mem_append.mp h
  have hpid := request.oldPid_lt
  have hargc := request.argv_length
  have hargcPos := length_pos_of_ne_nil request.argv_ne_nil
  have henvc := request.env_length
  refine ⟨⟨decimal request.oldPid, encode request.networkId, encode request.cwd, decimal request.argv.length,
    request.argv.map encode, decimal request.env.length, request.env.map encode, [], request.networkId, request.env, ?_,
    request.decode_networkId.1, ⟨rfl, request.decode_networkId.2⟩, base64Decode_encode request.cwd_fits request.cwd_nulFree, ?_,
    spells_encode request.argv_strings, ?_, spells_encode request.env_strings, ⟨?_, rfl⟩⟩⟩
  · rw [tokens_respawnFields, visible_cwd hcwd, visible_eq_self_iff.mpr hargv, visible_eq_self_iff.mpr henv, append_nil]
    rfl
  · rw [number_decimal (by omega), length_map]
    omega
  · rw [number_decimal (by omega), length_map]
    omega
  · rw [number_decimal (by omega)]
    rfl

lemma reads_of_coincidence (hcwd : request.cwd ≠ []) (h : Coincidence hint request) :
    Nonempty (Reads (some request.networkId) hint (tokens ([9].intercalate (respawnFields request))) (request.respawn hint)) := by
  obtain ⟨arguments, value, hargv, hnone, hhint, hvalue, henv⟩ := h
  have hpid := request.oldPid_lt
  have hargc := request.argv_length
  have hargcPos := length_pos_of_ne_nil request.argv_ne_nil
  have hstrings : ∀ string ∈ arguments, (0 : UInt8) ∉ string ∧ string.length < 65536 := by
    intro string hstring
    exact request.argv_strings string (by simp [hargv, hstring])
  have hspells : List.Forall₂ Spells (arguments.map encode ++ [decimal 1]) request.argv := by
    rw [hargv]
    exact rel_append (spells_encode hstrings) (.cons base64Decode_one .nil)
  refine ⟨⟨decimal request.oldPid, encode request.networkId, encode request.cwd, decimal request.argv.length,
    arguments.map encode ++ [decimal 1], encode (preloadEntry value), [], [], request.networkId, [], ?_,
    request.decode_networkId.1, ⟨rfl, request.decode_networkId.2⟩, base64Decode_encode request.cwd_fits request.cwd_nulFree, ?_,
    hspells, ?_, .nil, ⟨?_, ?_⟩⟩⟩
  · have harguments : visible request.argv = arguments := by
      have hfiltered : visible arguments = arguments := visible_eq_self_iff.mpr hnone
      rw [hargv, visible, filter_append, ← visible, hfiltered]
      simp
    have hentry : visible [preloadEntry value] = [preloadEntry value] := rfl
    rw [tokens_respawnFields, visible_cwd hcwd, harguments, henv, hentry]
    simp
  · have hlength := congrArg length hargv
    rw [length_append, length_singleton] at hlength
    rw [number_decimal (by omega), length_append, length_map, length_singleton]
    omega
  · rw [number_preloadEntry]
    simp
  · rw [number_decimal (by omega)]
    rfl
  · show withPreload hint request.env = _
    rw [henv, hhint]
    cases value with
    | nil => exact absurd rfl hvalue
    | cons c value => rfl

lemma env_of_shifted {envc : Text} {environment env : List Text} (htokens : request.env.map encode = envc :: environment)
    (hcount : number envc = environment.length) (hspells : List.Forall₂ Spells environment env)
    (hsame : withPreload hint env = withPreload hint request.env) :
    ∃ value, hint = some value ∧ value ≠ [] ∧ request.env = [preloadEntry value] := by
  cases hentries : request.env with
  | nil =>
    rw [hentries] at htokens
    cases htokens
  | cons first entries =>
    have hstrings := request.env_strings
    rw [hentries] at htokens hsame hstrings
    cases htokens
    obtain rfl := eq_of_spells_encode (forall_mem_cons.mp hstrings).2 hspells
    have hlong := length_withPreload hint (first :: env)
    rw [← hsame, length_cons] at hlong
    obtain hadded | ⟨value, hvalue, hhint, hadded⟩ := withPreload_cases hint env
    · rw [hadded] at hlong
      omega
    have hfirst : first :: env = env ++ [preloadEntry value] := by
      obtain hkept | ⟨value', -, -, hkept⟩ := withPreload_cases hint (first :: env)
      · rw [← hkept, ← hsame, hadded]
      rw [hkept, hadded] at hsame
      have hlength := congrArg length hsame
      simp at hlength
    -- every entry is the library's, which is no number
    have hall : ∀ entry ∈ env ++ [preloadEntry value], entry = first := SplitText.forall_eq_of_append_eq_cons hfirst.symm
    have hpreload : preloadEntry value = first := hall _ (mem_append_right _ mem_cons_self)
    rw [← hpreload, number_preloadEntry] at hcount
    have hnil : env = [] := by
      rw [length_map] at hcount
      exact eq_nil_of_length_eq_zero (by omega)
    exact ⟨value, hhint, hvalue, by rw [hnil, hpreload]⟩

/-- When the arguments take more tokens than they have, they take one more, the number of variables. -/
lemma shifted_of_tokens {front environment rest env : List Text} {envc : Text}
    (htokens : (visible request.argv).map encode ++ decimal request.env.length :: (visible request.env).map encode =
      front ++ envc :: (environment ++ rest))
    (hfront : (visible request.argv).length < front.length) (hcount : number envc = environment.length)
    (hspells : List.Forall₂ Spells environment env) (hsame : withPreload hint env = withPreload hint request.env) :
    front = (visible request.argv).map encode ++ [decimal 1] ∧
      ∃ value, hint = some value ∧ value ≠ [] ∧ request.env = [preloadEntry value] := by
  have henvLength := hspells.length_eq
  have henvVisible := length_visible_le request.env
  have hlong := (length_withPreload hint request.env).trans (hsame ▸ length_withPreload_le hint env)
  have hlength := congrArg length htokens
  simp only [length_append, length_map, length_cons] at hlength
  have henv := noneEmpty_of_length (by omega : request.env.length ≤ (visible request.env).length)
  obtain rfl := eq_nil_of_length_eq_zero (l := rest) (by omega)
  have hjoined : ((visible request.argv).map encode ++ [decimal request.env.length]) ++ request.env.map encode =
      front ++ envc :: environment := by
    rw [visible_eq_self_iff.mpr henv, append_nil] at htokens
    rw [append_assoc, singleton_append]
    exact htokens
  have hfirst : ((visible request.argv).map encode ++ [decimal request.env.length]).length = front.length := by
    rw [length_append, length_map, length_singleton]
    omega
  obtain ⟨hfront, henvironment⟩ := append_inj hjoined hfirst
  obtain ⟨value, hhint, hvalue, hentries⟩ := env_of_shifted henvironment hcount hspells hsame
  have hone : request.env.length = 1 := by rw [hentries, length_singleton]
  rw [hone] at hfront
  exact ⟨hfront.symm, value, hhint, hvalue, hentries⟩

lemma survives_of_reads (hcwd : request.cwd ≠ [])
    (reads : Reads (some request.networkId) hint (tokens ([9].intercalate (respawnFields request))) (request.respawn hint)) :
    Survives hint request := by
  obtain ⟨oldPid, network, cwd, argc, arguments, envc, environment, rest, networkId, env, htokens, -, -, -, hargc, harguments, henvc, henvironment,
    hrespawn⟩ := reads
  rw [tokens_respawnFields, visible_cwd hcwd] at htokens
  simp only [map_cons, map_nil, cons_append, nil_append, cons.injEq] at htokens
  obtain ⟨-, -, -, -, htokens⟩ := htokens
  have hargvLength : arguments.length = request.argv.length := harguments.length_eq
  refine ⟨hcwd, ?_⟩
  by_cases hshort : request.argv.length ≤ (visible request.argv).length
  · -- every argument has its token, so the number of variables is where it belongs
    left
    have hargv := noneEmpty_of_length hshort
    have hargvVisible := length_visible_le request.argv
    have henvLimit := request.env_length
    have hlength := congrArg length htokens
    simp only [length_append, length_map, length_cons] at hlength
    have hfirst : ((visible request.argv).map encode).length = arguments.length := by
      rw [length_map]
      omega
    obtain ⟨-, hrest⟩ := append_inj htokens hfirst
    obtain ⟨rfl, -⟩ := cons.inj hrest
    rw [number_decimal (by omega)] at henvc
    exact forall_mem_append.mpr ⟨hargv, noneEmpty_of_length (by omega)⟩
  · right
    obtain ⟨rfl, value, hhint, hvalue, hentries⟩ :=
      shifted_of_tokens htokens (by omega) henvc.1 henvironment hrespawn.2.symm
    have hstrings : ∀ string ∈ visible request.argv, (0 : UInt8) ∉ string ∧ string.length < 65536 :=
      fun string h => request.argv_strings string (mem_of_mem_filter h)
    have hread : List.Forall₂ Spells ((visible request.argv).map encode ++ [decimal 1]) (visible request.argv ++ [[]]) :=
      rel_append (spells_encode hstrings) (.cons base64Decode_one .nil)
    refine ⟨visible request.argv, value, ?_, ?_, hhint, hvalue, hentries⟩
    · exact right_unique_forall₂' spells_rightUnique harguments hread
    · intro string hstring
      simpa using of_mem_filter hstring

/-- Without its token the current directory is the number of arguments, and the arguments end with the number of variables. -/
lemma false_of_reads (hcwd : request.cwd = [])
    (reads : Reads (some request.networkId) hint (tokens ([9].intercalate (respawnFields request))) (request.respawn hint)) : False := by
  obtain ⟨oldPid, network, cwd, argc, arguments, envc, environment, rest, networkId, env, htokens, -, -, -, hargc, harguments, henvc, henvironment,
    hrespawn⟩ := reads
  have hvisible : visible [request.cwd] = [] := by rw [hcwd]; rfl
  rw [tokens_respawnFields, hvisible] at htokens
  simp only [map_nil, nil_append, cons.injEq] at htokens
  obtain ⟨-, -, -, htokens⟩ := htokens
  have hargvLength : arguments.length = request.argv.length := harguments.length_eq
  have hargvVisible := length_visible_le request.argv
  obtain ⟨hfirst, -⟩ := shifted_of_tokens (show _ = (argc :: arguments) ++ envc :: (environment ++ rest) from htokens)
    (by rw [length_cons]; omega) henvc.1 henvironment hrespawn.2.symm
  have hlength := congrArg length hfirst
  rw [length_append, length_map, length_singleton, length_cons] at hlength
  have hargv := noneEmpty_of_length (by omega : request.argv.length ≤ (visible request.argv).length)
  rw [visible_eq_self_iff.mpr hargv] at hfirst
  -- the last argument is read from the number of variables
  have hreverse : List.Forall₂ Spells arguments.reverse request.argv.reverse := rel_reverse harguments
  have hlast : ∃ tail, arguments.reverse = decimal 1 :: tail := by
    cases harguments' : request.argv with
    | nil => exact absurd harguments' request.argv_ne_nil
    | cons first strings =>
      rw [harguments', map_cons, cons_append] at hfirst
      rw [(cons.inj hfirst).2]
      exact ⟨_, reverse_concat ..⟩
  obtain ⟨tail, htail⟩ := hlast
  rw [htail] at hreverse
  cases hstrings : request.argv.reverse with
  | nil =>
    rw [hstrings] at hreverse
    cases hreverse
  | cons last strings =>
    rw [hstrings] at hreverse
    cases hreverse with
    | cons hspells _ =>
      obtain rfl := spells_rightUnique hspells base64Decode_one
      refine hargv [] ?_ rfl
      rw [← mem_reverse, hstrings]
      exact mem_cons_self

end Reading

/-- The hook relaunches what was asked for exactly if the current directory and all strings are not empty, or by coincidence. -/
theorem respawn_roundtrip_iff (request : RespawnRequest) (hint : Option Text) :
    controlDispatchLine (some request.networkId) hint (buildEscapedRespawnLine request) = some (request.respawn hint) ↔ Survives hint request := by
  rw [controlDispatchLine_build]
  constructor
  · intro h
    obtain ⟨reads⟩ := exists_reads h
    by_cases hcwd : request.cwd = []
    · exact (false_of_reads hcwd reads).elim
    · exact survives_of_reads hcwd reads
  · rintro ⟨hcwd, h | h⟩
    · exact (reads_of_noneEmpty hcwd h).elim Reads.handled
    · exact (reads_of_coincidence hcwd h).elim Reads.handled

/-- `node` with an empty argument and one more, and one variable. -/
def shiftedRequest : RespawnRequest where
  oldPid := 100
  networkId := ascii "net"
  cwd := ascii "/"
  argv := [ascii "node", [], ascii "x"]
  env := [ascii "A=1"]
  oldPid_pos := by decide
  oldPid_lt := by decide
  networkId_length := by decide +kernel
  networkId_nulFree := by decide +kernel
  cwd_fits := by decide +kernel
  cwd_nulFree := by decide +kernel
  argv_ne_nil := by decide
  argv_length := by decide
  env_length := by decide
  strings := by decide +kernel

/-- The arguments come in another order, and the variable is gone. -/
theorem respawn_shifted : controlDispatchLine (some (ascii "net")) none (buildEscapedRespawnLine shiftedRequest) =
    some ⟨100, ascii "/", [ascii "node", ascii "x", []], []⟩ := by
  decide +kernel

end PortManager.Hook
