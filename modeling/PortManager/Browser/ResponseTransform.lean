import PortManager.Base.Run
import PortManager.Browser.OriginRewritePass

/-!
# The response body as it arrives

Embeds `BrowserProxyResponseTransform` of `platform/ports/browser-network-proxy-http.ts`: a decoder and two or four passes, each of
which sees what the pass before it puts out. The decoder is Node's on well-formed UTF-8.

Along every division of a body into chunks, as long as each pass cuts its text where an unfinished origin starts, the chunks put out
are together what the expressions give on the whole text (`transformed_eq`). A pass cuts there unless a character U+0130 stands in the
last units before the origin, because its lower case is two units long: two such characters in front of an origin that is
divided keep the origin from being rewritten.
-/

namespace PortManager.Browser
open JsonText Node Rewriting Run List

/-! ## The transform -/

def passPatterns (metadata : EndpointMetadata) : List OriginPattern :=
  [localPattern false, localPattern true] ++
    match metadata.upstreamLoopbackHost with
    | none => []
    | some host => [loopbackPattern host false, loopbackPattern host true]

/-- TypeScript `translate`: what the last pass puts out, and the passes. -/
def translate (table : LowerCase) (metadata : EndpointMetadata) (final : Bool) :
    List (OriginPattern × PassState) → Units → Units × List (OriginPattern × PassState)
  | [], text => (text, [])
  | (pattern, state) :: passes, text =>
    let written := state.write table pattern metadata text final
    let next := translate table metadata final passes written.1
    (next.1, (pattern, written.2) :: next.2)

/-- `decoder.write(chunk)` -/
def decodeChunk (place : Utf8.Place) : List Nat → Units × Utf8.Place
  | [] => ([], place)
  | octet :: chunk =>
    let next := decodeChunk (Utf8.step place octet).2 chunk
    ((Utf8.step place octet).1 ++ next.1, next.2)

/-- A TypeScript `BrowserProxyResponseTransform`, with what it has pushed. -/
structure ResponseTransform where
  decoder : Utf8.Place
  passes : List (OriginPattern × PassState)
  pushed : Units

def ResponseTransform.new (metadata : EndpointMetadata) : ResponseTransform :=
  ⟨.between, (passPatterns metadata).map fun pattern => (pattern, .new), []⟩

/-- TypeScript `_transform`. -/
def ResponseTransform.transform (table : LowerCase) (metadata : EndpointMetadata) (transform : ResponseTransform)
    (chunk : List Nat) : ResponseTransform :=
  let decoded := decodeChunk transform.decoder chunk
  let translated := translate table metadata false transform.passes decoded.1
  ⟨decoded.2, translated.2, transform.pushed ++ translated.1⟩

/-- TypeScript `_flush`: everything that was pushed. -/
def ResponseTransform.flush (table : LowerCase) (metadata : EndpointMetadata) (transform : ResponseTransform) : Units :=
  transform.pushed ++ (translate table metadata true transform.passes (Utf8.flush transform.decoder)).1

def transformed (table : LowerCase) (metadata : EndpointMetadata) (chunks : List (List Nat)) : Units :=
  (run (ResponseTransform.transform table metadata) (.new metadata) chunks).flush table metadata

/-- No character U+0130 is in the part of the text that is searched, in front of the unfinished origin. -/
def SearchesPlain (pattern : OriginPattern) (pending : Units) : Prop :=
  unfinishedOrigin pattern pending < pending.length →
    0x130 ∉ (pending.take (unfinishedOrigin pattern pending)).drop (pending.length - maxOriginLength pattern)

instance (pattern : OriginPattern) (pending : Units) : Decidable (SearchesPlain pattern pending) := by
  unfold SearchesPlain
  infer_instance

/-- Every pass that a piece of text goes through searches such a text. -/
def PassesSearchPlain (table : LowerCase) (metadata : EndpointMetadata) :
    List (OriginPattern × PassState) → Units → Prop
  | [], _ => True
  | (pattern, state) :: passes, text =>
    SearchesPlain pattern (state.pending ++ text) ∧
      PassesSearchPlain table metadata passes (state.write table pattern metadata text false).1

instance decidablePassesSearchPlain (table : LowerCase) (metadata : EndpointMetadata) :
    ∀ (passes : List (OriginPattern × PassState)) (text : Units), Decidable (PassesSearchPlain table metadata passes text)
  | [], _ => .isTrue trivial
  | (pattern, state) :: passes, text =>
    have := decidablePassesSearchPlain table metadata passes (state.write table pattern metadata text false).1
    inferInstanceAs (Decidable (SearchesPlain pattern (state.pending ++ text) ∧
      PassesSearchPlain table metadata passes (state.write table pattern metadata text false).1))

def ChunkSearchesPlain (table : LowerCase) (metadata : EndpointMetadata) (transform : ResponseTransform) (chunk : List Nat) :
    Prop :=
  PassesSearchPlain table metadata transform.passes (decodeChunk transform.decoder chunk).1

instance (table : LowerCase) (metadata : EndpointMetadata) (transform : ResponseTransform) (chunk : List Nat) :
    Decidable (ChunkSearchesPlain table metadata transform chunk) :=
  decidablePassesSearchPlain ..

/-! ## What the passes still have to do -/

lemma findUnfinishedOrigin_eq_iff (table : LowerCase) (pattern : OriginPattern) (pending : Units) :
    findUnfinishedOrigin table pattern pending = unfinishedOrigin pattern pending ↔ SearchesPlain pattern pending := by
  rw [findUnfinishedOrigin_eq, SearchesPlain]
  split_ifs with hlt
  · simp only [hlt, true_imp_iff, add_eq_left, count_eq_zero]
  · have hle := unfinishedOrigin_le pattern pending
    exact iff_of_true (by omega) fun h => absurd h hlt

/-- What the passes will put out for the rest of the text. -/
def remaining (metadata : EndpointMetadata) : List (OriginPattern × PassState) → Units → Units
  | [], text => text
  | (pattern, state) :: passes, text =>
    remaining metadata passes (advance (originRules pattern metadata) [] state.place (state.pending ++ text)).1

def PassesReady (metadata : EndpointMetadata) (passes : List (OriginPattern × PassState)) : Prop :=
  ∀ pass ∈ passes, pass.2.Ready pass.1 metadata

variable {passes : List (OriginPattern × PassState)} {text : Units}

lemma passesReady_cons {metadata : EndpointMetadata} {pattern : OriginPattern} {state : PassState} :
    PassesReady metadata ((pattern, state) :: passes) ↔ state.Ready pattern metadata ∧ PassesReady metadata passes :=
  forall_mem_cons

variable {table : LowerCase} {metadata : EndpointMetadata}

lemma translate_remaining (hready : PassesReady metadata passes)
    (hplain : PassesSearchPlain table metadata passes text) :
    PassesReady metadata (translate table metadata false passes text).2 ∧ ∀ more,
      remaining metadata passes (text ++ more) =
        (translate table metadata false passes text).1 ++
          remaining metadata (translate table metadata false passes text).2 more := by
  induction passes generalizing text with
  | nil => exact ⟨hready, fun _ => rfl⟩
  | cons pass passes ih =>
    obtain ⟨pattern, state⟩ := pass
    obtain ⟨hstate, hpasses⟩ := passesReady_cons.mp hready
    obtain ⟨hsearch, hrest⟩ := hplain
    obtain ⟨hstate', hmore⟩ := write_advance hstate ((findUnfinishedOrigin_eq_iff table pattern _).mpr hsearch)
    obtain ⟨hpasses', hnext⟩ := ih hpasses hrest
    refine ⟨passesReady_cons.mpr ⟨hstate', hpasses'⟩, fun more => ?_⟩
    calc remaining metadata ((pattern, state) :: passes) (text ++ more)
        = remaining metadata passes
            (advance (originRules pattern metadata) [] state.place (state.pending ++ text ++ more)).1 := by
          rw [remaining, append_assoc]
      _ = _ := by
          rw [hmore more, hnext]
          rfl

lemma translate_final (hready : PassesReady metadata passes) :
    (translate table metadata true passes text).1 = remaining metadata passes text := by
  induction passes generalizing text with
  | nil => rfl
  | cons pass passes ih =>
    obtain ⟨pattern, state⟩ := pass
    obtain ⟨hstate, hpasses⟩ := passesReady_cons.mp hready
    rw [translate, remaining, ← write_final hstate text]
    exact ih hpasses

lemma decodeFrom_append (place : Utf8.Place) (chunk rest : List Nat) :
    Utf8.decodeFrom place (chunk ++ rest) = (decodeChunk place chunk).1 ++ Utf8.decodeFrom (decodeChunk place chunk).2 rest := by
  induction chunk generalizing place with
  | nil => rfl
  | cons octet chunk ih =>
    rw [cons_append, Utf8.decodeFrom, ih, decodeChunk, append_assoc]

/-! ## Whole bodies -/

def rewriteAll (metadata : EndpointMetadata) (text : Units) : Units :=
  (passPatterns metadata).foldl (fun text pattern => rewrite (originRules pattern metadata) text) text

lemma remaining_new (patterns : List OriginPattern) (text : Units) :
    remaining metadata (patterns.map fun pattern => (pattern, .new)) text =
      patterns.foldl (fun text pattern => rewrite (originRules pattern metadata) text) text := by
  induction patterns generalizing text with
  | nil => rfl
  | cons pattern patterns ih => exact ih _

/-- What the transform has pushed and what it will push for the rest of the body. -/
def ResponseTransform.Gives (metadata : EndpointMetadata) (whole : List Nat → Units) (transform : ResponseTransform) : Prop :=
  PassesReady metadata transform.passes ∧ ∀ rest,
    whole rest = transform.pushed ++ remaining metadata transform.passes (Utf8.decodeFrom transform.decoder rest)

lemma gives_transform {whole : List Nat → Units} {transform : ResponseTransform} {chunk : List Nat}
    (h : transform.Gives metadata whole) (hplain : ChunkSearchesPlain table metadata transform chunk) :
    (transform.transform table metadata chunk).Gives metadata fun rest => whole (chunk ++ rest) := by
  obtain ⟨hready, hwhole⟩ := h
  obtain ⟨hready', hmore⟩ := translate_remaining hready hplain
  refine ⟨hready', fun rest => ?_⟩
  show whole (chunk ++ rest) = _
  rw [hwhole, decodeFrom_append, hmore, ResponseTransform.transform, append_assoc]

/-- However a body is divided: if all passes search plain texts, it comes out with all expressions applied. -/
lemma transformed_eq {chunks : List (List Nat)}
    (hplain : StepsMeet (ResponseTransform.transform table metadata) (ChunkSearchesPlain table metadata) (.new metadata) chunks) :
    transformed table metadata chunks = rewriteAll metadata (Utf8.decode chunks.flatten) := by
  have hall : ∀ (chunks : List (List Nat)) (transform : ResponseTransform) (whole : List Nat → Units),
      transform.Gives metadata whole →
      StepsMeet (ResponseTransform.transform table metadata) (ChunkSearchesPlain table metadata) transform chunks →
      (run (ResponseTransform.transform table metadata) transform chunks).flush table metadata = whole chunks.flatten := by
    intro chunks
    induction chunks with
    | nil =>
      rintro transform whole ⟨hready, hwhole⟩ -
      rw [run_nil, ResponseTransform.flush, translate_final hready, flatten_nil, hwhole]
      rfl
    | cons chunk chunks ih =>
      rintro transform whole hgives ⟨hchunk, hchunks⟩
      rw [run_cons, flatten_cons]
      exact ih _ _ (gives_transform hgives hchunk) hchunks
  refine hall chunks (.new metadata) (fun rest => rewriteAll metadata (Utf8.decode rest)) ⟨?_, fun rest => ?_⟩ hplain
  · intro pass hpass
    obtain ⟨pattern, -, rfl⟩ := mem_map.mp hpass
    exact ready_new
  · rw [ResponseTransform.new, nil_append, remaining_new]
    rfl

/-- A body that arrives in chunks comes out as if it had arrived as one, when in both arrivals no pass meets a U+0130 in the part of its
text that it searches, in front of an unfinished origin. This is exactly when a pass finds the place where that origin starts. -/
theorem transformed_chunks (table : LowerCase) (metadata : EndpointMetadata) :
    (∀ chunks : List (List Nat),
      StepsMeet (ResponseTransform.transform table metadata) (ChunkSearchesPlain table metadata) (.new metadata) chunks →
      StepsMeet (ResponseTransform.transform table metadata) (ChunkSearchesPlain table metadata) (.new metadata)
        [chunks.flatten] →
      transformed table metadata chunks = transformed table metadata [chunks.flatten]) ∧
    ∀ pattern pending, findUnfinishedOrigin table pattern pending = unfinishedOrigin pattern pending ↔
      SearchesPlain pattern pending := by
  refine ⟨fun chunks hchunks hone => ?_, findUnfinishedOrigin_eq_iff table⟩
  rw [transformed_eq hchunks, transformed_eq hone, flatten_singleton]

def plainTable : LowerCase where
  other := fun _ c _ => max c 128
  other_high := fun _ c _ => Nat.le_max_right c 128

/-- The condition is met by an origin that is divided in its scheme, behind a U+0130 that is far enough away. -/
theorem transformed_divided_scheme :
    let metadata : EndpointMetadata := ⟨.http, codes "a.test", 8080, 3000, none, by decide⟩
    let first := [0xC4, 0xB0] ++ codes "<a href=\"/b\">c d e</a> ht"
    let second := codes "tp://localhost:3000/"
    transformed plainTable metadata [first, second] = transformed plainTable metadata [[first, second].flatten] := by
  intro metadata first second
  exact (transformed_chunks plainTable metadata).1 [first, second] (by decide +kernel) (by decide +kernel)

/-- Two characters U+0130 in front of an origin that arrives in two chunks: it is not rewritten. -/
theorem divided_origin_kept :
    let metadata : EndpointMetadata := ⟨.http, codes "a.test", 8080, 3000, none, by decide⟩
    let first := [0xC4, 0xB0, 0xC4, 0xB0] ++ codes "ht"
    let second := codes "tp://localhost:3000/"
    transformed plainTable metadata [first, second] = [0x130, 0x130] ++ codes "http://localhost:3000/" ∧
      transformed plainTable metadata [first ++ second] = [0x130, 0x130] ++ codes "http://a.test:8080/" := by
  decide +kernel

end PortManager.Browser
