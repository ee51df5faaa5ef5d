import PortManager.Base.Run
import PortManager.Native.RoutePass

/-!
# The heartbeat of route files

Embeds the schedule of route publications (`native/agent/portmanager_agent_state.c`): the heartbeat
(`pm_state_route_table_heartbeat_due`), the coalescing window of mutations
(`pm_state_schedule_route_publication`) and the publication with its completion, on passes that
succeed at once. One clock stands for the wall clock of the files and the monotonic one of the scheduler.

There is one heartbeat clock, and every successful pass sets it, also a pass that skipped a file because
it was fresh enough. A file that is skipped late in its life is not looked at again before it has expired.
The theorem of this module is the converse: where no pass skips a file that will not last until the next
heartbeat, and neither a coalescing window nor a first handshake leaves a file less than a second, every
observed file is rewritten before it expires.
-/

namespace PortManager.Native
open CText Run List RouteTtl

/-- The daemon as far as route publications see it. `lastScheduleMs` is when the scheduler last ran. -/
structure RouteDaemon where
  clockMs : Int
  routes : List Route
  refreshes : List BidirectionalRefresh
  dirty : Bool
  dirtySinceMs : Option Int
  retryAfterMs : Int
  lastIoMs : Int
  files : RouteFiles
  disk : Disk
  lastScheduleMs : Int

/-- What does not change: `qsort`, the identity of the writer, the TTL, and which processes live. -/
structure RouteSetting where
  qsort : Qsort
  writer : RouteWriter
  ttl : RouteTtl
  alive : Int → Bool

variable (ttl : RouteTtl)

/-- The interval of C `pm_state_route_table_heartbeat_due`. -/
def RouteTtl.interval : Int := max 1 (ttl.seconds - ttl.margin)

/-- C `pm_state_route_table_heartbeat_due`. -/
def heartbeatDue (refreshedAt now : Int) : Bool :=
  refreshedAt ≤ 0 || ttl.interval ≤ now - refreshedAt

variable (setting : RouteSetting) (daemon : RouteDaemon)

/-- The call that C `pm_state_flush_route_tables` captures; every system call of it succeeds at once. -/
def RouteDaemon.call : SnapshotCall where
  writer := setting.writer
  ttl := setting.ttl
  refreshes := daemon.refreshes
  routes := daemon.routes
  attempt := fun _ => ⟨daemon.clockMs, setting.alive, true⟩

def RouteDaemon.pass : Bool × RouteFiles × Disk :=
  writeRouteSnapshot setting.qsort (daemon.call setting) daemon.files daemon.disk

/-- C `pm_state_flush_route_tables` with C `pm_route_publication_run` and
C `pm_route_publication_finish`, all at one time. -/
def RouteDaemon.publish : RouteDaemon :=
  let (ok, files, disk) := daemon.pass setting
  if ok then
    { daemon with files := files, disk := disk, dirty := false, dirtySinceMs := none, retryAfterMs := 0 }
  else
    { daemon with
      files := files
      disk := disk
      dirty := true
      dirtySinceMs := some daemon.clockMs
      retryAfterMs := daemon.clockMs + 1000 }

def RouteDaemon.windowEnd : Option Int :=
  daemon.dirtySinceMs.map fun since => min (since + 250) (daemon.lastIoMs + 40)

/-- A publication is wanted: after a mutation, or for the heartbeat. -/
def RouteDaemon.wantsPublication : Bool :=
  daemon.dirty || heartbeatDue setting.ttl daemon.files.refreshedAt (daemon.clockMs / 1000)

def RouteDaemon.windowOpen : Bool :=
  daemon.windowEnd.any fun due => daemon.clockMs < due

inductive Scheduled where
  | idle | postponed | publishes
deriving DecidableEq

/-- The decision of C `pm_state_schedule_route_publication`; no receipt is pending at a call. -/
def RouteDaemon.scheduled : Scheduled :=
  if daemon.clockMs < daemon.retryAfterMs ∨ daemon.wantsPublication setting = false then .idle
  else if daemon.windowOpen then .postponed else .publishes

/-- What can happen next: time passes, the registry changes (routes and observations), a client sends
something, the scheduler runs, a request flushes, or a repair forgets the signatures and flushes. -/
inductive RouteEvent where
  | elapse (ms : Nat)
  | mutate (routes : List Route) (refreshes : List BidirectionalRefresh)
  | io
  | schedule
  | flush
  | repair

/-- C `pm_route_table_signatures_clear`, which a publication after C `pm_state_repair_routing` begins
with. -/
def RouteDaemon.forgetSignatures : RouteDaemon :=
  { daemon with files := { daemon.files with signatures := fun _ => none } }

def RouteDaemon.step : RouteEvent → RouteDaemon
  | .elapse ms => { daemon with clockMs := daemon.clockMs + ms }
  | .mutate routes refreshes =>
    -- C pm_mark_route_tables_dirty
    { daemon with
      routes := routes
      refreshes := refreshes
      dirty := true
      dirtySinceMs := daemon.dirtySinceMs.or (some daemon.clockMs) }
  | .io => { daemon with lastIoMs := daemon.clockMs }
  | .schedule =>
    let daemon := { daemon with lastScheduleMs := daemon.clockMs }
    if daemon.scheduled setting = .publishes then daemon.publish setting else daemon
  | .flush => daemon.publish setting
  | .repair => daemon.forgetSignatures.publish setting

def RouteDaemon.start (clockMs : Int) (files : RouteFiles) (disk : Disk) : RouteDaemon :=
  ⟨clockMs, [], [], false, none, 0, 0, files, disk, clockMs⟩

/-! ## Observed files -/

def RouteDaemon.currentFiles : List (Text × List Route) :=
  (currentNetworks setting.qsort daemon.routes).map (fun id =>
      (scopedRouteTablePath setting.writer.routeTablePath id,
        buildNetworkRouteSnapshot setting.qsort daemon.routes id)) ++
    entryRuns setting.qsort setting.writer.routeTablePath daemon.routes

def RouteDaemon.ObservedCurrent (path : Text) (file : RouteFile) : Prop :=
  daemon.disk path = some file ∧ ∃ routes, (path, routes) ∈ daemon.currentFiles setting ∧
    file.routes = routesJson routes ∧ waitsForFirstHandshake daemon.refreshes routes = false

instance (setting : RouteSetting) (daemon : RouteDaemon) (path : Text) (file : RouteFile) :
    Decidable (daemon.ObservedCurrent setting path file) :=
  decidable_of_iff
    (daemon.disk path = some file ∧ ∃ item ∈ daemon.currentFiles setting, item.1 = path ∧
      file.routes = routesJson item.2 ∧ waitsForFirstHandshake daemon.refreshes item.2 = false)
    ⟨fun ⟨hfile, item, hitem, hpath, hrest⟩ => ⟨hfile, item.2, hpath ▸ hitem, hrest⟩,
      fun ⟨hfile, routes, hitem, hrest⟩ => ⟨hfile, (path, routes), hitem, rfl, hrest⟩⟩

/-- The daemon in which an event publishes, if it does. -/
def RouteDaemon.publishing : RouteEvent → Option RouteDaemon
  | .schedule => if daemon.scheduled setting = .publishes then some daemon else none
  | .flush => some daemon
  | .repair => some daemon.forgetSignatures
  | _ => none

/-- The scheduler runs at least once per second, and every publication succeeds. -/
def RouteDaemon.Served (event : RouteEvent) : Prop :=
  (∀ ms, event = .elapse ms → daemon.clockMs + ms ≤ daemon.lastScheduleMs + 1000) ∧
    ∀ publisher ∈ daemon.publishing setting event, (publisher.pass setting).1 = true

instance (setting : RouteSetting) (daemon : RouteDaemon) (event : RouteEvent) :
    Decidable (daemon.Served setting event) :=
  have : Decidable (∀ ms, event = .elapse ms → daemon.clockMs + ms ≤ daemon.lastScheduleMs + 1000) :=
    match event with
    | .elapse ms => decidable_of_iff (daemon.clockMs + ms ≤ daemon.lastScheduleMs + 1000)
        ⟨fun h _ hms => RouteEvent.elapse.inj hms ▸ h, fun h => h ms rfl⟩
    | .mutate .. | .io | .schedule | .flush | .repair => .isTrue fun _ hms => nomatch hms
  inferInstanceAs (Decidable (_ ∧ _))

/-- When the first heartbeat after a pass at this time is over, at the latest. -/
def RouteTtl.nextHeartbeatMs (clockMs : Int) : Int :=
  1000 * (clockMs / 1000 + ttl.interval + 1)

/-- No pass skips an observed file that does not last until the next heartbeat; a scheduler call that
waits for the coalescing window leaves every observed file more than a second; and so does a mutation. -/
def RouteDaemon.Renewed (event : RouteEvent) : Prop :=
  (∀ publisher ∈ daemon.publishing setting event, ∀ path file, publisher.ObservedCurrent setting path file →
    publisher.files.signatures path = some file.routes →
    routeTableFileFreshForReuse setting.ttl file false publisher.clockMs = true →
    setting.ttl.nextHeartbeatMs publisher.clockMs ≤ file.expiresAtMs) ∧
  (event = .schedule → daemon.scheduled setting = .postponed →
    ∀ path file, daemon.ObservedCurrent setting path file → daemon.clockMs + 1000 < file.expiresAtMs) ∧
  (∀ routes refreshes, event = .mutate routes refreshes →
    ∀ path file, (daemon.step setting event).ObservedCurrent setting path file →
      daemon.lastScheduleMs + 1000 < file.expiresAtMs)

/-! ## Expiry of written files -/

lemma RouteTtl.margin_bounds : 1 ≤ ttl.margin ∧ ttl.margin < ttl.seconds := by
  have := ttl.five_le
  unfold margin
  omega

lemma RouteTtl.interval_eq : ttl.interval = ttl.seconds - ttl.margin := by
  have := ttl.margin_bounds
  unfold interval
  omega

lemma RouteTtl.nextHeartbeatMs_le (clockMs : Int) : ttl.nextHeartbeatMs clockMs ≤ clockMs + 1000 * ttl.seconds := by
  have hmargin := ttl.margin_bounds
  rw [nextHeartbeatMs, ttl.interval_eq]
  omega

lemma RouteTtl.lt_nextHeartbeatMs (clockMs : Int) : clockMs + 1000 < ttl.nextHeartbeatMs clockMs := by
  have hmargin := ttl.margin_bounds
  rw [nextHeartbeatMs, ttl.interval_eq]
  omega

variable {routes : List Route} {setting : RouteSetting} {daemon : RouteDaemon} {path : Text}

lemma routeTableExpiresAtMs_of_observed {ttl : RouteTtl} {refreshes : List BidirectionalRefresh}
    (h : waitsForFirstHandshake refreshes routes = false) (nowMs : Int) :
    routeTableExpiresAtMs ttl refreshes routes nowMs = nowMs + 1000 * ttl.seconds := by
  have hlease : routes.map (routeLeaseSeconds ttl refreshes) = List.replicate routes.length ttl.seconds := by
    refine eq_replicate_iff.mpr ⟨length_map _, fun lease hlease => ?_⟩
    obtain ⟨route, hroute, rfl⟩ := mem_map.mp hlease
    have hobserved := any_eq_false.mp h route hroute
    rw [routeLeaseSeconds, if_pos (by simpa using hobserved)]
  rw [routeTableExpiresAtMs, hlease]
  cases routes with
  | nil => rfl
  | cons route routes => simp

lemma textMember_inj {a b : Text} (h : textMember a = textMember b) : a = b := by
  unfold textMember at h
  split at h <;> split at h
  next ha hb => rw [ha, hb]
  next => cases h
  next => cases h
  next => exact Option.some.inj h

variable (refreshes : List BidirectionalRefresh)

lemma waitsForFirstHandshake_of_json_eq {routes' : List Route} (h : routesJson routes = routesJson routes') :
    waitsForFirstHandshake refreshes routes = waitsForFirstHandshake refreshes routes' := by
  induction routes generalizing routes' with
  | nil =>
    cases routes' with
    | nil => rfl
    | cons route' routes' => cases h
  | cons route routes ih =>
    cases routes' with
    | nil => cases h
    | cons route' routes' =>
      obtain ⟨hhead, htail⟩ := List.cons.inj h
      have hport : route.logicalPort = route'.logicalPort := congrArg RouteJson.logicalPort hhead
      have hnetwork : route.networkId = route'.networkId :=
        textMember_inj (congrArg RouteJson.networkId hhead)
      have hobserved : routeHasBidirectionalObservation refreshes route =
          routeHasBidirectionalObservation refreshes route' := by
        rw [routeHasBidirectionalObservation, hport, hnetwork]
        rfl
      have hrest := ih htail
      simp only [waitsForFirstHandshake, any_cons, hobserved] at hrest ⊢
      rw [hrest]

/-! ## A pass at one time -/

/-- A file that lasts until `bound` if all its routes are observed. -/
def Lasts (bound : Int) (file : RouteFile) : Prop :=
  ∀ routes, file.routes = routesJson routes → waitsForFirstHandshake refreshes routes = false →
    bound ≤ file.expiresAtMs

/-- A path that the pass has left alone so far, or whose file lasts. -/
def Tended (bound : Int) (start st : PassState) (path : Text) : Prop :=
  (st.disk path = start.disk path ∧ st.signatures path = start.signatures path) ∨
    ∀ file, st.disk path = some file → Lasts refreshes bound file

/-- A path whose file the pass has found fresh, or whose file lasts. -/
def Reviewed (pass : SnapshotPass) (clockMs bound : Int) (start st : PassState) (path : Text)
    (routes : List Route) : Prop :=
  (st.disk path = start.disk path ∧ st.signatures path = start.signatures path ∧
    start.signatures path = some (routesJson routes) ∧
    ∀ file, start.disk path = some file → routes ≠ [] → routeTableFileFreshForReuse pass.ttl file
      (waitsForFirstHandshake pass.refreshes routes) clockMs = true) ∨
    ∀ file, st.disk path = some file → Lasts pass.refreshes bound file

section Pass

variable {pass : SnapshotPass} {clockMs bound : Int} {start st : PassState}

lemma document_lasts (hbound : bound ≤ clockMs + 1000 * pass.ttl.seconds) (routes : List Route) :
    Lasts pass.refreshes bound (pass.document routes clockMs) := by
  intro routes' hjson hobserved
  have hwaits := waitsForFirstHandshake_of_json_eq pass.refreshes hjson
  rw [SnapshotPass.document, routeTableExpiresAtMs_of_observed (hwaits.trans hobserved)]
  exact hbound

variable (hnow : ∀ n, (pass.attempt n).nowMs = clockMs)
  (hbound : bound ≤ clockMs + 1000 * pass.ttl.seconds)
include hnow hbound

variable {path : Text} {routes : List Route}

lemma FileWrite.left_or_lasts {path' : Text} {result : Bool × PassState} (h : FileWrite pass st path' routes result)
    (path : Text) : (result.2.disk path = st.disk path ∧ result.2.signatures path = st.signatures path) ∨
      ∀ file, result.2.disk path = some file → Lasts pass.refreshes bound file := by
  by_cases hpath : path = path'
  · subst hpath
    cases h with
    | failed | skipped => exact .inl ⟨rfl, rfl⟩
    | written =>
      refine .inr fun file hfile => ?_
      simp only [Function.update_self, Option.some.injEq] at hfile
      rw [← hfile, show (pass.next st).nowMs = clockMs from hnow _]
      exact document_lasts hbound routes
  · exact .inl (h.elsewhere hpath)

lemma Tended.write (h : Tended pass.refreshes bound start st path) (path' : Text) (routes : List Route) :
    Tended pass.refreshes bound start (pass.writeFileIfChanged st path' routes).2 path := by
  rcases (writeFileIfChanged_write pass st path' routes).left_or_lasts hnow hbound path with ⟨hdisk, hsigned⟩ | hlasts
  · simpa only [Tended, hdisk, hsigned] using h
  · exact .inr hlasts

lemma Reviewed.write (h : Reviewed pass clockMs bound start st path routes) (path' : Text) (routes' : List Route) :
    Reviewed pass clockMs bound start (pass.writeFileIfChanged st path' routes').2 path routes := by
  rcases (writeFileIfChanged_write pass st path' routes').left_or_lasts hnow hbound path with ⟨hdisk, hsigned⟩ | hlasts
  · simpa only [Reviewed, hdisk, hsigned] using h
  · exact .inr hlasts

lemma Tended.reviewed (h : Tended pass.refreshes bound start st path)
    (hok : (pass.writeFileIfChanged st path routes).1 = true) :
    Reviewed pass clockMs bound start (pass.writeFileIfChanged st path routes).2 path routes := by
  have htended := h.write hnow hbound path routes
  have hwrite := writeFileIfChanged_write pass st path routes
  generalize pass.writeFileIfChanged st path routes = result at hwrite hok htended
  cases hwrite with
  | failed => cases hok
  | skipped file hfile hsignature hnewer hfresh =>
    rcases h with ⟨hdisk, hsignatures⟩ | hlasts
    · refine .inl ⟨hdisk, hsignatures, hsignatures ▸ hsignature, fun file' hfile' hsome => ?_⟩
      obtain rfl := Option.some.inj (hfile.symm.trans (hdisk.trans hfile'))
      rw [← hnow st.operations]
      exact hfresh.resolve_right hsome
    · exact .inr hlasts
  | written =>
    refine .inr fun file hfile => ?_
    simp only [Function.update_self, Option.some.injEq] at hfile
    rw [← hfile, show (pass.next st).nowMs = clockMs from hnow _]
    exact document_lasts hbound routes

lemma reviewed_of_writes {items : List (Text × List Route)} {item : Text × List Route}
    (hitem : item ∈ items) (hstart : Tended pass.refreshes bound start st item.1)
    (hok : (runOperations (fun st item => pass.writeFileIfChanged st item.1 item.2) st items).1 = true) :
    Reviewed pass clockMs bound start
      (runOperations (fun st item => pass.writeFileIfChanged st item.1 item.2) st items).2 item.1 item.2 := by
  induction items generalizing st with
  | nil => cases hitem
  | cons first items ih =>
    rw [runOperations_cons] at hok ⊢
    obtain ⟨hrest, hfirst⟩ := Bool.and_eq_true_iff.mp hok
    rcases mem_cons.mp hitem with rfl | hmem
    · have hfirst := hstart.reviewed hnow hbound hfirst
      refine runOperations_keeps (P := fun st => Reviewed pass clockMs bound start st item.1 item.2) ?_ hfirst
      intro st other _ h
      exact h.write hnow hbound other.1 other.2
    · exact ih hmem (hstart.write hnow hbound first.1 first.2) hrest

end Pass

lemma Reviewed.unlink {pass : SnapshotPass} {clockMs bound : Int} {start st : PassState}
    (h : Reviewed pass clockMs bound start st path routes) (path' : Text) :
    Reviewed pass clockMs bound start (pass.unlink st path').2 path routes := by
  have hunlink := unlink_unlink pass st path'
  generalize pass.unlink st path' = result at hunlink
  by_cases hpath : path = path'
  · subst hpath
    cases hunlink with
    | failed => exact h
    | removed =>
      refine .inr fun file hfile => ?_
      simp only [Function.update_self] at hfile
      cases hfile
  · simpa only [Reviewed, hunlink.elsewhere hpath] using h

lemma RouteDaemon.mem_snapshotWrites {item : Text × List Route} (hitem : item ∈ daemon.currentFiles setting) :
    item ∈ snapshotWrites setting.qsort setting.writer.routeTablePath daemon.files daemon.routes ∧
      item.2 ≠ [] := by
  unfold snapshotWrites
  simp only [mem_append]
  rcases mem_append.mp hitem with hnetwork | hentry
  · refine ⟨.inl (.inl (.inl hnetwork)), ?_⟩
    obtain ⟨id, hid, rfl⟩ := mem_map.mp hnetwork
    obtain ⟨-, route, hroute, rfl⟩ := (mem_currentNetworks _ _).mp hid
    exact buildNetworkRouteSnapshot_ne_nil _ _ hroute
  · exact ⟨.inl (.inr hentry), ne_nil_of_mem_pathRuns _ hentry⟩

open RouteDaemon

lemma RouteDaemon.reviewed_of_pass (hok : (daemon.pass setting).1 = true)
    (hitem : (path, routes) ∈ daemon.currentFiles setting) :
    ∃ st : PassState, st.disk = (daemon.pass setting).2.2 ∧
      Reviewed ((daemon.call setting).pass daemon.files) daemon.clockMs
        (setting.ttl.nextHeartbeatMs daemon.clockMs) ⟨daemon.disk, daemon.files.signatures, 1⟩ st path routes := by
  obtain ⟨hoperations, hpass⟩ := writeRouteSnapshot_of_ok hok
  refine ⟨_, (congrArg (fun result => result.2.2) hpass).symm, ?_⟩
  obtain ⟨hwritten, -⟩ := Bool.and_eq_true_iff.mp hoperations
  refine runOperations_keeps (P := fun st => Reviewed _ _ _ _ st path routes)
    (fun st other _ h => h.unlink other) ?_
  exact reviewed_of_writes (fun _ => rfl) (setting.ttl.nextHeartbeatMs_le daemon.clockMs)
    (mem_snapshotWrites hitem).1 (.inl ⟨rfl, rfl⟩) hwritten

/-! ## Publications -/

/-- What a successful publication leaves: a clean registry, a new heartbeat, and observed files that last
until the next one. -/
structure RouteDaemon.Published (setting : RouteSetting) (daemon after : RouteDaemon) : Prop where
  clock : after.clockMs = daemon.clockMs
  schedule : after.lastScheduleMs = daemon.lastScheduleMs
  retry : after.retryAfterMs = 0
  refreshed : after.files.refreshedAt = daemon.clockMs / 1000
  lasting : ∀ path file, after.ObservedCurrent setting path file →
    setting.ttl.nextHeartbeatMs daemon.clockMs ≤ file.expiresAtMs

lemma RouteDaemon.publish_published (hok : (daemon.pass setting).1 = true)
    (hskip : ∀ path file, daemon.ObservedCurrent setting path file →
      daemon.files.signatures path = some file.routes →
      routeTableFileFreshForReuse setting.ttl file false daemon.clockMs = true →
      setting.ttl.nextHeartbeatMs daemon.clockMs ≤ file.expiresAtMs) :
    daemon.Published setting (daemon.publish setting) := by
  have hpublish : daemon.publish setting =
      { daemon with
        files := (daemon.pass setting).2.1
        disk := (daemon.pass setting).2.2
        dirty := false
        dirtySinceMs := none
        retryAfterMs := 0 } := if_pos hok
  rw [hpublish]
  refine ⟨rfl, rfl, rfl, ?_, ?_⟩
  · have hpass := (writeRouteSnapshot_of_ok hok).2
    exact congrArg (fun result => result.2.1.refreshedAt) hpass
  rintro path file ⟨hfile, routes, hitem, hjson, hobserved⟩
  obtain ⟨st, hdisk, hreviewed⟩ := reviewed_of_pass hok hitem
  rcases hreviewed with ⟨hsame, -, hsignature, hfresh⟩ | hlasts
  · -- the pass has skipped the file
    have hbefore : daemon.disk path = some file := hsame.symm.trans (hdisk ▸ hfile)
    have hwaits : waitsForFirstHandshake daemon.refreshes routes = false := hobserved
    have hfresh := hfresh file hbefore (mem_snapshotWrites hitem).2
    refine hskip path file ⟨hbefore, routes, hitem, hjson, hobserved⟩ (hjson ▸ hsignature) ?_
    rw [← hwaits]
    exact hfresh
  · exact hlasts file (hdisk ▸ hfile) routes hjson hobserved

/-! ## Runs -/

/-- What holds between two events: the scheduler ran within the last second, every observed file
outlives its next call, and without a mutation also the next heartbeat. -/
structure RouteDaemon.Timely (setting : RouteSetting) (daemon : RouteDaemon) : Prop where
  started : 0 ≤ daemon.clockMs
  retry : daemon.retryAfterMs = 0
  past : daemon.lastScheduleMs ≤ daemon.clockMs
  served : daemon.clockMs ≤ daemon.lastScheduleMs + 1000
  outlives : ∀ path file, daemon.ObservedCurrent setting path file →
    daemon.lastScheduleMs + 1000 < file.expiresAtMs
  lasting : daemon.dirty = false → ∀ path file, daemon.ObservedCurrent setting path file →
    1000 * (daemon.files.refreshedAt + setting.ttl.interval + 1) ≤ file.expiresAtMs

lemma RouteDaemon.start_timely (setting : RouteSetting) {clockMs : Int} (hclock : 0 ≤ clockMs)
    (files : RouteFiles) (disk : Disk) : (start clockMs files disk).Timely setting := by
  have hnone : ∀ path file, ¬ (start clockMs files disk).ObservedCurrent setting path file := by
    rintro path file ⟨-, routes, hitem, -⟩
    rcases mem_append.mp hitem with hnetwork | hentry
    · obtain ⟨id, hid, -⟩ := mem_map.mp hnetwork
      obtain ⟨-, route, hroute, -⟩ := (mem_currentNetworks _ _).mp hid
      cases hroute
    · obtain ⟨⟨item, hmem, -⟩, -⟩ := mem_pathRuns _ hentry
      cases hmem
  exact ⟨hclock, rfl, Int.le_refl _, by simp [start], fun path file h => absurd h (hnone path file),
    fun _ path file h => absurd h (hnone path file)⟩

lemma RouteDaemon.Published.timely {after : RouteDaemon} (h : daemon.Published setting after)
    (hstarted : 0 ≤ daemon.clockMs) (hpast : daemon.lastScheduleMs ≤ daemon.clockMs)
    (hserved : daemon.clockMs ≤ daemon.lastScheduleMs + 1000) : after.Timely setting := by
  refine ⟨h.clock ▸ hstarted, h.retry, ?_, ?_, fun path file hfile => ?_, fun _ path file hfile => ?_⟩
  · rw [h.schedule, h.clock]
    exact hpast
  · rw [h.schedule, h.clock]
    exact hserved
  · have hlong := setting.ttl.lt_nextHeartbeatMs daemon.clockMs
    have hlasting := h.lasting path file hfile
    rw [h.schedule]
    omega
  · rw [h.refreshed]
    exact h.lasting path file hfile

lemma RouteDaemon.Timely.idle (h : daemon.Timely setting) (hidle : daemon.scheduled setting = .idle)
    {file : RouteFile} (hfile : daemon.ObservedCurrent setting path file) :
    daemon.clockMs + 1000 < file.expiresAtMs := by
  unfold scheduled at hidle
  split at hidle
  next hnothing =>
    rcases hnothing with hretry | hwants
    · rw [h.retry] at hretry
      exact absurd h.started (Int.not_le.mpr hretry)
    obtain ⟨hclean, hdue⟩ := Bool.or_eq_false_iff.mp hwants
    have hlasting := h.lasting hclean path file hfile
    simp only [heartbeatDue, Bool.or_eq_false_iff, decide_eq_false_iff_not] at hdue
    omega
  next => split at hidle <;> cases hidle

lemma RouteDaemon.Timely.step {event : RouteEvent} (h : daemon.Timely setting) (hserved : daemon.Served setting event)
    (hrenewed : daemon.Renewed setting event) : (daemon.step setting event).Timely setting := by
  obtain ⟨hskips, hwindow, hmutation⟩ := hrenewed
  cases event with
  | elapse ms =>
    have hms := hserved.1 ms rfl
    have hstarted := h.started
    have hpast := h.past
    exact ⟨by simp only [RouteDaemon.step]; omega, h.retry, by simp only [RouteDaemon.step]; omega, hms,
      h.outlives, h.lasting⟩
  | mutate routes refreshes =>
    exact ⟨h.started, h.retry, h.past, h.served, hmutation routes refreshes rfl, fun hclean => by cases hclean⟩
  | io => exact { h with }
  | schedule =>
    have hnow : daemon.clockMs ≤ daemon.clockMs + 1000 := by omega
    simp only [RouteDaemon.step]
    split
    next hpublishes =>
      have hpublisher : daemon ∈ daemon.publishing setting .schedule := if_pos hpublishes
      have hpublished : Published setting { daemon with lastScheduleMs := daemon.clockMs } _ :=
        publish_published (hserved.2 daemon hpublisher) (hskips daemon hpublisher)
      exact hpublished.timely h.started (Int.le_refl _) hnow
    next hquiet =>
      refine ⟨h.started, h.retry, Int.le_refl _, hnow, fun path file hfile => ?_, h.lasting⟩
      cases hscheduled : daemon.scheduled setting with
      | idle => exact h.idle hscheduled hfile
      | postponed => exact hwindow rfl hscheduled path file hfile
      | publishes => exact absurd hscheduled hquiet
  | flush =>
    exact (publish_published (hserved.2 daemon rfl) (hskips daemon rfl)).timely h.started h.past
      h.served
  | repair =>
    exact (publish_published (hserved.2 _ rfl) (hskips _ rfl)).timely h.started h.past h.served

def insertionQsort : Qsort where
  sort := fun cmp items => items.insertionSort fun a b => cmp a b ≠ .gt
  perm := fun cmp items => List.perm_insertionSort _ items
  sorted := fun cmp items hswap htrans => by
    have : Std.Total fun a b => cmp a b ≠ .gt := ⟨fun a b => by
      by_cases h : cmp a b = .gt
      · exact .inr (hswap a b h)
      · exact .inl h⟩
    have : IsTrans _ fun a b => cmp a b ≠ .gt := ⟨htrans⟩
    exact List.pairwise_insertionSort _ items

def sampleSetting : RouteSetting where
  qsort := insertionQsort
  writer := ⟨ascii "/r/routes.json", ascii "w", 1, 1⟩
  ttl := routeTableTtlSeconds none
  alive := fun _ => true

def sampleRoute : Route :=
  ⟨3000, 4000, .listen, ascii "127.0.0.1", [], ascii "net", [], 0, ascii "p", [], .running, .hooked⟩

def noFiles : RouteFiles := ⟨0, [], [], [], fun _ => none, 0⟩

def sampleStart : RouteDaemon := .start 100900 noFiles fun _ => none

lemma RouteDaemon.not_mem_publishing_of_idle (hidle : daemon.scheduled setting = .idle)
    (publisher : RouteDaemon) : publisher ∉ daemon.publishing setting .schedule := by
  simp [publishing, hidle]

def sampleFile (sequence : Int) : RouteFile where
  expiresAtMs := 115900
  ttlStartsAfterFirstHandshake := false
  generation := ⟨ascii "w", 1, sequence, 1⟩
  routes := routesJson [sampleRoute]

/-- An observed route appears and is published; the scheduler runs once more. -/
def shortRun : List RouteEvent :=
  [.mutate [sampleRoute] [⟨3000, ascii "net", 100⟩], .schedule, .elapse 1000, .schedule]

def everySecond (seconds : Nat) : List RouteEvent :=
  (List.replicate seconds [RouteEvent.elapse 1000, RouteEvent.schedule]).flatten

/-- A route that is observed and published at `100900`, with calls of the scheduler at most a second
apart. The pass at `108000` finds 7.9 seconds left and skips the file, and sets the heartbeat clock. -/
def ageingRun : List RouteEvent :=
  .schedule :: .mutate [sampleRoute] [⟨3000, ascii "net", 100⟩] :: .schedule ::
    (everySecond 7 ++ .elapse 100 :: .schedule :: (everySecond 7 ++ [.elapse 900]))

end PortManager.Native
