import PortManager.Base.Run
import PortManager.Node.RouteTable

/-!
# Unchanged route files

What `writeRouteTableFile` does to a file whose signature has not changed. It looks at the file's expiry and
skips the write while more than the refresh margin is left.

Two things follow. The heartbeat reaches the margin before the file expires exactly in some phases, and in
all phases exactly for a TTL of at most 30001 ms. And a skipped write leaves the routes of an earlier
publication, which need not be those of the call: the signature leaves out the terminal session, the process
group and the process name, and does not see the order.
-/

namespace PortManager.Node
open Run List Option Function FileState RoutePass

/-! ## One file operation -/

/-- What a write can do: it fails, finds the file good enough, or replaces it. -/
inductive FileWritten (pass : RoutePass) (st : FileState) (kind : RouteFileKind) (path : List Nat)
    (routes : List LogicalPortRoute) : Bool × FileState → Prop where
  | failed : isRouteTablePathNewerThanGeneration (st.disk path) pass.generation (pass.onWrite kind path) = true ∨
        (pass.onWrite kind path).ok = false →
      FileWritten pass st kind path routes (false, st)
  | skipped (file : RouteTableFile) : st.disk path = some file →
      st.signatures path = some (buildRouteTableSignature pass.rowSort routes) →
      routeTableFileNeedsRefresh pass.ttl file (pass.onWrite kind path).nowMs
          (routeTableTtlMetadata pass.ttl pass.observed routes (pass.onWrite kind path).nowMs) = false ∨
        routes = [] →
      FileWritten pass st kind path routes (true, st)
  | replaced : (∀ file, st.disk path = some file →
        st.signatures path = some (buildRouteTableSignature pass.rowSort routes) →
        routeTableFileNeedsRefresh pass.ttl file (pass.onWrite kind path).nowMs
          (routeTableTtlMetadata pass.ttl pass.observed routes (pass.onWrite kind path).nowMs) = true) →
      isRouteTablePathNewerThanGeneration (st.disk path) pass.generation (pass.onWrite kind path) = false →
      (pass.onWrite kind path).ok = true →
      FileWritten pass st kind path routes (true,
        { disk := Function.update st.disk path (some (pass.document routes (pass.onWrite kind path).nowMs))
          signatures := Function.update st.signatures path (some (buildRouteTableSignature pass.rowSort routes))
          authored := Function.update st.authored path (some kind) })

lemma writeRouteTableFile_written (pass : RoutePass) (st : FileState) (kind : RouteFileKind) (path : List Nat)
    (routes : List LogicalPortRoute) :
    FileWritten pass st kind path routes (pass.writeRouteTableFile st kind path routes) := by
  have direct : (∀ file, st.disk path = some file →
        st.signatures path = some (buildRouteTableSignature pass.rowSort routes) →
        routeTableFileNeedsRefresh pass.ttl file (pass.onWrite kind path).nowMs
          (routeTableTtlMetadata pass.ttl pass.observed routes (pass.onWrite kind path).nowMs) = true) →
      FileWritten pass st kind path routes (pass.replaceFile st kind path routes) := by
    intro hstale
    simp only [replaceFile]
    split
    next hfails => exact .failed hfails
    next hgo =>
      obtain ⟨hnewer, hok⟩ := not_or.mp hgo
      exact .replaced hstale (by simpa using hnewer) (by simpa using hok)
  simp only [writeRouteTableFile]
  split
  next hnone => exact direct fun file hfile => absurd (hnone.symm.trans hfile) nofun
  next file hfile =>
    split
    next hsignature =>
      split
      next hnewer => exact .failed (.inl (hfile ▸ hnewer))
      next =>
        split
        next hfresh => exact .skipped file hfile hsignature (.inl (by simpa using hfresh))
        next hstale =>
          split
          next hempty => exact .skipped file hfile hsignature (.inr hempty)
          next =>
            refine direct fun file' hfile' _ => ?_
            obtain rfl := mem_unique hfile hfile'
            simpa using hstale
    next hsignature => exact direct fun _ _ h => absurd h hsignature

/-- What the cleanup of a path can do: it fails, or the file is gone. -/
inductive FileRemoved (pass : RoutePass) (st : FileState) (kind : RouteFileKind) (path : List Nat) :
    Bool × FileState → Prop where
  | failed : isRouteTablePathNewerThanGeneration (st.disk path) pass.generation (pass.onRemove kind path) = true ∨
        (pass.onRemove kind path).ok = false →
      FileRemoved pass st kind path (false, st)
  | removed : isRouteTablePathNewerThanGeneration (st.disk path) pass.generation (pass.onRemove kind path) = false →
      (pass.onRemove kind path).ok = true →
      FileRemoved pass st kind path (true, { st with
        disk := Function.update st.disk path none
        signatures := Function.update st.signatures path none })

lemma removeFile_removed (pass : RoutePass) (st : FileState) (kind : RouteFileKind) (path : List Nat) :
    FileRemoved pass st kind path (pass.removeFile st kind path) := by
  simp only [removeFile]
  split
  next hfails => exact .failed hfails
  next hgo =>
    obtain ⟨hnewer, hok⟩ := not_or.mp hgo
    exact .removed (by simpa using hnewer) (by simpa using hok)

/-! ## The heartbeat -/

/-- A file of observed routes that the daemon wrote at `writtenAtMs`, and the heartbeat, whose first tick
comes `phase` later. -/
structure Heartbeat where
  rowSort : RowSort
  ttl : RouteTtlMs
  observed : List (List Nat)
  kind : RouteFileKind
  path : List Nat
  routes : List LogicalPortRoute
  generation : RouteTableGeneration
  writtenAtMs : Int
  phase : Int
  alive : Int → Bool

variable (heartbeat : Heartbeat)

def Heartbeat.tick (n : Nat) : Int :=
  heartbeat.writtenAtMs + heartbeat.phase + n * routeTableHeartbeatIntervalMs heartbeat.ttl

/-- The pass of a tick; its system calls succeed, and the routes and observations are those of the file. -/
def Heartbeat.pass (n : Nat) : RoutePass where
  rowSort := heartbeat.rowSort
  ttl := heartbeat.ttl
  observed := heartbeat.observed
  generation := { heartbeat.generation with sequence := heartbeat.generation.sequence + n + 1 }
  onWrite := fun _ _ => ⟨heartbeat.tick n, heartbeat.alive, true⟩
  onRemove := fun _ _ => ⟨heartbeat.tick n, heartbeat.alive, true⟩

def Heartbeat.file : RouteTableFile where
  expiresAtMs := some (heartbeat.writtenAtMs + heartbeat.ttl.ms)
  ttlStartsAfterFirstHandshake := false
  generation := some heartbeat.generation
  routes := heartbeat.routes

def Heartbeat.start : FileState where
  disk := Function.update (fun _ => none) heartbeat.path (some heartbeat.file)
  signatures := Function.update (fun _ => none) heartbeat.path
    (some (buildRouteTableSignature heartbeat.rowSort heartbeat.routes))
  authored := Function.update (fun _ => none) heartbeat.path (some heartbeat.kind)

def Heartbeat.after (heartbeat : Heartbeat) : Nat → FileState
  | 0 => heartbeat.start
  | n + 1 => ((heartbeat.pass n).writeRouteTableFile (heartbeat.after n) heartbeat.kind heartbeat.path
      heartbeat.routes).2

def Heartbeat.Observed : Prop :=
  heartbeat.routes ≠ [] ∧ ∀ route ∈ heartbeat.routes,
    buildLogicalEndpointIdentity route.networkId route.logicalPort ∈ heartbeat.observed

/-- Some tick strictly before the expiry rewrites the file. -/
def Heartbeat.RewrittenInTime : Prop :=
  ∃ n, heartbeat.tick n < heartbeat.writtenAtMs + heartbeat.ttl.ms ∧
    (heartbeat.after n).disk heartbeat.path = some heartbeat.file ∧
    (heartbeat.after (n + 1)).disk heartbeat.path ≠ some heartbeat.file

section Heartbeat

variable {heartbeat : Heartbeat}

lemma Heartbeat.Observed.metadata (h : heartbeat.Observed) (nowMs : Int) :
    routeTableTtlMetadata heartbeat.ttl heartbeat.observed heartbeat.routes nowMs =
      ⟨nowMs + heartbeat.ttl.ms, false⟩ := by
  obtain ⟨hne, hobserved⟩ := h
  simp only [routeTableTtlMetadata, RouteTableTtlMetadata.mk.injEq]
  constructor
  · have hlease : heartbeat.routes.map (fun route =>
        if decide (buildLogicalEndpointIdentity route.networkId route.logicalPort ∈ heartbeat.observed)
        then heartbeat.ttl.ms else PRE_HANDSHAKE_ROUTE_TABLE_LEASE_MS) =
        List.replicate heartbeat.routes.length heartbeat.ttl.ms := by
      refine eq_replicate_iff.mpr ⟨length_map _, fun lease hlease => ?_⟩
      obtain ⟨route, hroute, rfl⟩ := mem_map.mp hlease
      exact if_pos (decide_eq_true (hobserved route hroute))
    rw [hlease]
    cases hroutes : heartbeat.routes with
    | nil => exact absurd hroutes hne
    | cons route routes => simp
  · refine any_eq_false.mpr fun route hroute => ?_
    simp [hobserved route hroute]

lemma Heartbeat.Observed.tick_rewrites_iff (h : heartbeat.Observed) {st : FileState}
    (hdisk : st.disk heartbeat.path = some heartbeat.file)
    (hsignature : st.signatures heartbeat.path =
      some (buildRouteTableSignature heartbeat.rowSort heartbeat.routes)) (n : Nat) :
    ((heartbeat.pass n).writeRouteTableFile st heartbeat.kind heartbeat.path heartbeat.routes).2.disk
        heartbeat.path ≠ some heartbeat.file ↔
      heartbeat.writtenAtMs + heartbeat.ttl.ms - heartbeat.tick n ≤ routeTableRefreshMarginMs heartbeat.ttl := by
  have hrefresh : routeTableFileNeedsRefresh heartbeat.ttl heartbeat.file (heartbeat.tick n)
      (routeTableTtlMetadata heartbeat.ttl heartbeat.observed heartbeat.routes (heartbeat.tick n)) =
      decide (heartbeat.writtenAtMs + heartbeat.ttl.ms - heartbeat.tick n ≤
        routeTableRefreshMarginMs heartbeat.ttl) := by
    rw [h.metadata]
    simp [routeTableFileNeedsRefresh, Heartbeat.file]
  -- the file of the same writer with a smaller sequence number does not block the tick
  have hnewer : isRouteTablePathNewerThanGeneration (some heartbeat.file) (heartbeat.pass n).generation
      ((heartbeat.pass n).onWrite heartbeat.kind heartbeat.path) = false := by
    have hsequence : ¬ heartbeat.generation.sequence + n + 1 < heartbeat.generation.sequence := by omega
    simp [isRouteTablePathNewerThanGeneration, Heartbeat.file, Heartbeat.pass, isRouteTableGenerationNewer,
      hsequence]
  have hwritten : (heartbeat.pass n).document heartbeat.routes (heartbeat.tick n) ≠ heartbeat.file := by
    intro heq
    have hsequence := congrArg (fun file => file.generation.map (·.sequence)) heq
    simp only [document, Heartbeat.pass, Heartbeat.file, map_some, some.injEq] at hsequence
    omega
  have hwrite := writeRouteTableFile_written (heartbeat.pass n) st heartbeat.kind heartbeat.path heartbeat.routes
  generalize (heartbeat.pass n).writeRouteTableFile st heartbeat.kind heartbeat.path heartbeat.routes = result
    at hwrite
  cases hwrite with
  | failed hfails =>
    rw [hdisk, hnewer] at hfails
    rcases hfails with h | h <;> cases h
  | skipped file hfile _ hfresh =>
    obtain rfl := mem_unique hdisk hfile
    have hfresh := hrefresh.symm.trans (hfresh.resolve_right h.1)
    exact iff_of_false (fun hne => hne hdisk) (of_decide_eq_false hfresh)
  | replaced hstale =>
    have hstale := hrefresh.symm.trans (hstale heartbeat.file hdisk hsignature)
    simp only [update_self]
    exact iff_of_true (fun heq => hwritten (some.inj heq)) (of_decide_eq_true hstale)

lemma Heartbeat.after_signatures (heartbeat : Heartbeat) (n : Nat) :
    (heartbeat.after n).signatures heartbeat.path =
      some (buildRouteTableSignature heartbeat.rowSort heartbeat.routes) := by
  induction n with
  | zero => simp only [Heartbeat.after, Heartbeat.start, update_self]
  | succ n ih =>
    have hwrite := writeRouteTableFile_written (heartbeat.pass n) (heartbeat.after n) heartbeat.kind
      heartbeat.path heartbeat.routes
    rw [Heartbeat.after]
    generalize (heartbeat.pass n).writeRouteTableFile (heartbeat.after n) heartbeat.kind heartbeat.path
      heartbeat.routes = result at hwrite
    cases hwrite with
    | failed => exact ih
    | skipped => exact ih
    | replaced => simp only [update_self, Heartbeat.pass]

lemma Heartbeat.after_disk (heartbeat : Heartbeat) (n : Nat) :
    (heartbeat.after n).disk heartbeat.path = some heartbeat.file ∨
      ∃ m < n, (heartbeat.after m).disk heartbeat.path = some heartbeat.file ∧
        (heartbeat.after (m + 1)).disk heartbeat.path ≠ some heartbeat.file := by
  induction n with
  | zero =>
    left
    simp only [Heartbeat.after, Heartbeat.start, update_self]
  | succ n ih =>
    rcases ih with hstill | ⟨m, hm, hrewritten⟩
    · by_cases hnext : (heartbeat.after (n + 1)).disk heartbeat.path = some heartbeat.file
      · exact .inl hnext
      · exact .inr ⟨n, Nat.lt_succ_self n, hstill, hnext⟩
    · exact .inr ⟨m, Nat.lt_succ_of_lt hm, hrewritten⟩

lemma routeTableHeartbeatIntervalMs_pos (ttl : RouteTtlMs) : 0 < routeTableHeartbeatIntervalMs ttl := by
  unfold routeTableHeartbeatIntervalMs
  omega

lemma Heartbeat.Observed.rewrittenInTime_iff (h : heartbeat.Observed) :
    heartbeat.RewrittenInTime ↔ ∃ n, heartbeat.tick n < heartbeat.writtenAtMs + heartbeat.ttl.ms ∧
      heartbeat.writtenAtMs + heartbeat.ttl.ms - heartbeat.tick n ≤ routeTableRefreshMarginMs heartbeat.ttl := by
  constructor
  · rintro ⟨n, hbefore, hstill, hrewritten⟩
    exact ⟨n, hbefore, (h.tick_rewrites_iff hstill (heartbeat.after_signatures n) n).mp hrewritten⟩
  rintro ⟨n, hbefore, hmargin⟩
  rcases heartbeat.after_disk n with hstill | ⟨m, hm, hrewritten⟩
  · exact ⟨n, hbefore, hstill, (h.tick_rewrites_iff hstill (heartbeat.after_signatures n) n).mpr hmargin⟩
  refine ⟨m, ?_, hrewritten⟩
  have hle : (m : Int) * routeTableHeartbeatIntervalMs heartbeat.ttl ≤
      n * routeTableHeartbeatIntervalMs heartbeat.ttl :=
    Int.mul_le_mul_of_nonneg_right (by omega) (routeTableHeartbeatIntervalMs_pos _).le
  unfold Heartbeat.tick at *
  omega

end Heartbeat

lemma exists_tick_iff {interval margin ttl phase : Int} (hinterval : 0 < interval) (hphase : phase < interval)
    (httl : interval ≤ ttl) :
    (∃ n : Nat, phase + n * interval < ttl ∧ ttl - (phase + n * interval) ≤ margin) ↔
      (ttl - 1 - phase) % interval < margin := by
  constructor
  · rintro ⟨n, hbefore, hmargin⟩
    have hsplit : ttl - 1 - phase = (ttl - 1 - phase - n * interval) + n * interval := by omega
    have hle : (ttl - 1 - phase - n * interval) % interval ≤ ttl - 1 - phase - n * interval := by
      have hdiv := Int.emod_add_mul_ediv (ttl - 1 - phase - n * interval) interval
      have hnonneg := Int.mul_nonneg hinterval.le
        (Int.ediv_nonneg (show 0 ≤ ttl - 1 - phase - n * interval by omega) hinterval.le)
      omega
    rw [hsplit, Int.add_mul_emod_self_right]
    omega
  · intro hlast
    -- the last tick before the end
    have hdiv := Int.emod_add_mul_ediv (ttl - 1 - phase) interval
    have hnonneg : 0 ≤ (ttl - 1 - phase) / interval := Int.ediv_nonneg (by omega) hinterval.le
    have hrest := Int.emod_nonneg (ttl - 1 - phase) hinterval.ne'
    refine ⟨((ttl - 1 - phase) / interval).toNat, ?_⟩
    rw [Int.toNat_of_nonneg hnonneg, Int.mul_comm]
    omega

variable (ttl : RouteTtlMs)

lemma routeTableHeartbeatIntervalMs_le : routeTableHeartbeatIntervalMs ttl ≤ ttl.ms := by
  have := ttl.min_le
  unfold routeTableHeartbeatIntervalMs routeTableRefreshMarginMs
  omega

lemma interval_le_margin_iff : routeTableHeartbeatIntervalMs ttl ≤ routeTableRefreshMarginMs ttl ↔ ttl.ms ≤ 30001 := by
  have := ttl.min_le
  unfold routeTableHeartbeatIntervalMs routeTableRefreshMarginMs
  omega

lemma Heartbeat.Observed.rewrittenInTime_iff_emod {heartbeat : Heartbeat} (h : heartbeat.Observed)
    (hphase : heartbeat.phase < routeTableHeartbeatIntervalMs heartbeat.ttl) :
    heartbeat.RewrittenInTime ↔
      (heartbeat.ttl.ms - 1 - heartbeat.phase) % routeTableHeartbeatIntervalMs heartbeat.ttl <
        routeTableRefreshMarginMs heartbeat.ttl := by
  rw [h.rewrittenInTime_iff, ← exists_tick_iff (routeTableHeartbeatIntervalMs_pos heartbeat.ttl) hphase
    (routeTableHeartbeatIntervalMs_le heartbeat.ttl)]
  refine exists_congr fun n => ?_
  unfold Heartbeat.tick
  constructor
  · rintro ⟨hbefore, hmargin⟩
    exact ⟨by omega, by omega⟩
  · rintro ⟨hbefore, hmargin⟩
    exact ⟨by omega, by omega⟩

lemma emod_of_phase_on_expiry {ttl interval : Int} (hinterval : 0 < interval) :
    (ttl - 1 - ttl % interval) % interval = interval - 1 := by
  have hdiv := Int.emod_add_mul_ediv ttl interval
  have hsplit : ttl - 1 - ttl % interval = (interval - 1) + interval * (ttl / interval - 1) := by
    rw [Int.mul_sub, Int.mul_one]
    omega
  rw [hsplit, Int.add_mul_emod_self_left, Int.emod_eq_of_lt (by omega) (by omega)]

/-- A file of observed routes is rewritten in time exactly when the last tick before its expiry is in the
margin, and in every phase exactly when the TTL is at most 30001 ms. -/
theorem heartbeat_rewrites_in_time_iff (heartbeat : Heartbeat) (hobserved : heartbeat.Observed) :
    (0 ≤ heartbeat.phase → heartbeat.phase < routeTableHeartbeatIntervalMs heartbeat.ttl →
      (heartbeat.RewrittenInTime ↔
        (heartbeat.ttl.ms - 1 - heartbeat.phase) % routeTableHeartbeatIntervalMs heartbeat.ttl <
          routeTableRefreshMarginMs heartbeat.ttl)) ∧
    ((∀ phase, 0 ≤ phase → phase < routeTableHeartbeatIntervalMs heartbeat.ttl →
        ({ heartbeat with phase := phase } : Heartbeat).RewrittenInTime) ↔ heartbeat.ttl.ms ≤ 30001) := by
  have hpos := routeTableHeartbeatIntervalMs_pos heartbeat.ttl
  have hphases : ∀ phase, ({ heartbeat with phase := phase } : Heartbeat).Observed := fun _ => hobserved
  refine ⟨fun _ hlt => hobserved.rewrittenInTime_iff_emod hlt, ?_⟩
  rw [← interval_le_margin_iff]
  constructor
  · intro hall
    have hlt := Int.emod_lt_of_pos heartbeat.ttl.ms hpos
    have hlast := ((hphases _).rewrittenInTime_iff_emod hlt).mp
      (hall _ (Int.emod_nonneg heartbeat.ttl.ms hpos.ne') hlt)
    simp only [emod_of_phase_on_expiry hpos] at hlast
    omega
  · intro hshort phase _ hlt
    refine ((hphases phase).rewrittenInTime_iff_emod hlt).mpr ?_
    exact Int.lt_of_lt_of_le (Int.emod_lt_of_pos _ hpos) hshort

def sampleHeartbeat (phase : Int) : Heartbeat where
  rowSort := ⟨id, List.Perm.refl⟩
  ttl := ttl
  observed := [JsonText.codes ":3000"]
  kind := .entry
  path := JsonText.codes "/r/routes-port-3000.json"
  routes := [⟨3000, 4000, some .listen, JsonText.codes "localhost", none, none, none, none, none, none, .running,
    .hooked⟩]
  generation := ⟨JsonText.codes "w", 1, 1, 1⟩
  writtenAtMs := 0
  phase := phase
  alive := fun _ => true

lemma sampleHeartbeat_observed (phase : Int) : (sampleHeartbeat ttl phase).Observed := by
  refine ⟨cons_ne_nil _ _, fun route hroute => ?_⟩
  rw [mem_singleton.mp hroute]
  show buildLogicalEndpointIdentity none 3000 ∈ [JsonText.codes ":3000"]
  decide

theorem heartbeat_rewrites_in_time_default :
    (sampleHeartbeat (normalizeRouteTableTtlMs none 15000) 3000).RewrittenInTime :=
  (heartbeat_rewrites_in_time_iff (sampleHeartbeat (normalizeRouteTableTtlMs none 15000) 0)
    (sampleHeartbeat_observed _ 0)).2.mpr (by decide +kernel) 3000 (by decide) (by decide +kernel)

/-- With a TTL of a minute the ticks are 25 seconds apart and the margin is 10 seconds: ticks 10, 35 and 60
seconds after the write leave the file to expire. -/
theorem minute_ttl_expires :
    ¬ (sampleHeartbeat (normalizeRouteTableTtlMs (some 60000) 15000) 10000).RewrittenInTime := by
  rw [(sampleHeartbeat_observed _ _).rewrittenInTime_iff_emod (by decide +kernel)]
  decide +kernel

/-! ## Stored routes -/

inductive FileOperation where
  | write (pass : RoutePass) (kind : RouteFileKind) (path : List Nat) (routes : List LogicalPortRoute)
  | remove (pass : RoutePass) (kind : RouteFileKind) (path : List Nat)

/-- One operation; all passes of a daemon sort rows alike. -/
def FileState.step (rowSort : RowSort) (st : FileState) : FileOperation → FileState
  | .write pass kind path routes =>
    (({ pass with rowSort := rowSort } : RoutePass).writeRouteTableFile st kind path routes).2
  | .remove pass kind path => (pass.removeFile st kind path).2

/-- The files a daemon finds at its start, when it has written none. -/
def FileState.found (disk : List Nat → Option RouteTableFile) : FileState := ⟨disk, fun _ => none, fun _ => none⟩

def FileState.Remembers (rowSort : RowSort) (st : FileState) : Prop :=
  ∀ path file signature, st.disk path = some file → st.signatures path = some signature →
    signature = buildRouteTableSignature rowSort file.routes

lemma FileState.Remembers.step {rowSort : RowSort} {st : FileState} (h : st.Remembers rowSort)
    (operation : FileOperation) : (st.step rowSort operation).Remembers rowSort := by
  cases operation with
  | write pass kind path routes =>
    simp only [FileState.step]
    have hwrite := writeRouteTableFile_written { pass with rowSort := rowSort } st kind path routes
    generalize writeRouteTableFile _ st kind path routes = result at hwrite
    cases hwrite with
    | failed => exact h
    | skipped => exact h
    | replaced =>
      intro other file signature hfile hsignature
      by_cases hother : other = path
      · subst hother
        simp only [update_self, some.injEq] at hfile hsignature
        rw [← hfile, ← hsignature]
        rfl
      · simp only [update_of_ne hother] at hfile hsignature
        exact h other file signature hfile hsignature
  | remove pass kind path =>
    simp only [FileState.step]
    have hremove := removeFile_removed pass st kind path
    generalize pass.removeFile st kind path = result at hremove
    cases hremove with
    | failed => exact h
    | removed =>
      intro other file signature hfile hsignature
      by_cases hother : other = path
      · subst hother
        simp only [update_self] at hfile
        cases hfile
      · simp only [update_of_ne hother] at hfile hsignature
        exact h other file signature hfile hsignature

/-- A call that returns `true` stores its routes exactly when the file it finds, if it is one the daemon
remembers and not yet due, does not hold other routes of the same signature. -/
theorem stored_routes_exact_iff (rowSort : RowSort) (disk : List Nat → Option RouteTableFile)
    (operations : List FileOperation) (pass : RoutePass) (hsort : pass.rowSort = rowSort) (kind : RouteFileKind)
    (path : List Nat) (routes : List LogicalPortRoute) (hroutes : routes ≠ [])
    (hok : (pass.writeRouteTableFile (run (step rowSort) (.found disk) operations) kind path
      routes).1 = true) :
    ((pass.writeRouteTableFile (run (step rowSort) (.found disk) operations) kind path
        routes).2.disk path).map (·.routes) = some routes ↔
      ∀ file, (run (step rowSort) (.found disk) operations).disk path = some file →
        ((run (step rowSort) (.found disk) operations).signatures path).isSome →
        buildRouteTableSignature rowSort file.routes = buildRouteTableSignature rowSort routes →
        routeTableFileNeedsRefresh pass.ttl file (pass.onWrite kind path).nowMs
          (routeTableTtlMetadata pass.ttl pass.observed routes (pass.onWrite kind path).nowMs) = false →
        file.routes = routes := by
  have hremembers : (run (step rowSort) (.found disk) operations).Remembers rowSort :=
    run_keeps (fun st operation h => h.step operation) (fun _ _ _ _ hnone => by cases hnone) operations
  generalize run (step rowSort) (.found disk) operations = st at hremembers hok
  have hwrite := writeRouteTableFile_written pass st kind path routes
  generalize pass.writeRouteTableFile st kind path routes = result at hwrite hok
  subst hsort
  cases hwrite with
  | failed => cases hok
  | skipped file hfile hsignature hfresh =>
    simp only [hfile, map_some, some.injEq]
    constructor
    · rintro hexact _ rfl _ _ _
      exact hexact
    intro hcondition
    exact hcondition file rfl (by rw [hsignature]; rfl)
      (hremembers path file _ hfile hsignature).symm (hfresh.resolve_right hroutes)
  | replaced hstale =>
    simp only [update_self, map_some]
    refine iff_of_true rfl fun file hfile hremembered hsame hfresh => ?_
    obtain ⟨signature, hsignature⟩ := isSome_iff_exists.mp hremembered
    rw [hremembers path file signature hfile hsignature, hsame] at hsignature
    exact absurd ((hstale file hfile hsignature).symm.trans hfresh) nofun

def namedRoute (processName : String) : LogicalPortRoute where
  logicalPort := 3000
  actualPort := 4000
  routeDirection := some .listen
  host := JsonText.codes "localhost"
  cwd := none
  networkId := none
  terminalSessionId := none
  processGroupId := none
  processId := some (JsonText.codes "p")
  processName := some (JsonText.codes processName)
  status := .running
  source := .hooked

def sampleDaemon : RouteFileDaemon where
  base := JsonText.codes "/r/routes.json"
  rowSort := ⟨id, List.Perm.refl⟩
  ttl := normalizeRouteTableTtlMs none 15000
  writerId := JsonText.codes "w"
  writerStartedAtMs := 1
  agentPid := 1
  sequence := 0
  writtenNetworkIds := []
  writtenEntryPaths := []
  writtenClaimPaths := []
  files := .found fun _ => none

/-- A publication in which all writes or none succeed, and all removals or none. -/
def samplePublication (routes : List LogicalPortRoute) (writes removals : Bool) : RoutePublication where
  routes := routes
  observed := []
  onWrite := fun _ _ => ⟨0, fun _ => true, writes⟩
  onRemove := fun _ _ => ⟨0, fun _ => true, removals⟩
  onCheck := ⟨0, fun _ => true, true⟩

def sampleEntryPath : List Nat := JsonText.codes "/r/routes-port-3000.json"

theorem stored_routes_exact_first_write :
    (((sampleDaemon.pass (samplePublication [namedRoute "a"] true true)).writeRouteTableFile (.found fun _ => none)
        .entry sampleEntryPath [namedRoute "a"]).2.disk sampleEntryPath).map (·.routes) = some [namedRoute "a"] :=
  (stored_routes_exact_iff sampleDaemon.rowSort (fun _ => none) []
    (sampleDaemon.pass (samplePublication [namedRoute "a"] true true)) rfl .entry sampleEntryPath [namedRoute "a"]
    (cons_ne_nil _ _) (by decide +kernel)).mpr fun _ hfile => by cases hfile

/-- Two publications that succeed, of a route whose process gets another name: the entry keeps the first. -/
theorem renamed_process_not_stored :
    (sampleDaemon.writeRouteTable (samplePublication [namedRoute "a"] true true)).1 = true ∧
      ((sampleDaemon.writeRouteTable (samplePublication [namedRoute "a"] true true)).2.writeRouteTable
        (samplePublication [namedRoute "b"] true true)).1 = true ∧
      (((sampleDaemon.writeRouteTable (samplePublication [namedRoute "a"] true true)).2.writeRouteTable
        (samplePublication [namedRoute "b"] true true)).2.files.disk sampleEntryPath).map (·.routes) =
          some [namedRoute "a"] ∧
      [namedRoute "a"] ≠ [namedRoute "b"] := by
  decide +kernel

end PortManager.Node
