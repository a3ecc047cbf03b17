import LeResponder.System

/-! What holds in every reachable state of the daemon: the publish loop keeps the debounce
invariant, and only a request that passed `CanDelete` removes a record. -/
namespace LeResponder

section Invariants

variable {dc : DaemonConf} {lib : CertLib}

theorem Reachable.loopRun {w : World} (reached : Reachable dc lib w) : ∃ es, LoopRun Loop.init es w.loop := by
  induction reached with
  | init s => exact ⟨[], .refl _⟩
  | step m _ moved ih =>
    obtain ⟨es, run⟩ := ih
    rcases World.next_loop moved with same | ⟨ev, stepped⟩
    · exact ⟨es, same ▸ run⟩
    · cases ev with
      | none => exact ⟨es, .quiet run stepped⟩
      | some e => exact ⟨es ++ [e], .event run stepped⟩

theorem Reachable.scan_sound {w : World} (reached : Reachable dc lib w) : w.scan.Sound dc lib := by
  induction reached with
  | init s => trivial
  | step m _ moved ih =>
    rcases World.next_cases moved with ⟨c, pc, eff, -, stepped, applied⟩ |
      ⟨i, c, pc, pc', eff, -, -, -, applied⟩ | ⟨req, -, rfl⟩ | ⟨-, -, same⟩
    · rw [(World.apply_store applied).2.1]
      exact ScanPc.next_sound ih stepped
    · rw [(World.apply_store applied).2.1]
      exact ih
    · exact ih
    · rw [same]
      exact ih

theorem Reachable.admins_guarded {w : World} (reached : Reachable dc lib w) : ∀ pc ∈ w.admins, pc.Guarded dc := by
  induction reached with
  | init s => simp [World.init]
  | step m _ moved ih =>
    rcases World.next_cases moved with ⟨c, pc, eff, -, -, applied⟩ |
      ⟨i, c, pc, pc', eff, -, -, stepped, applied⟩ | ⟨req, -, rfl⟩ | ⟨-, same, -⟩
    · rw [(World.apply_store applied).1]
      exact ih
    · rw [(World.apply_store applied).1]
      intro q mem
      rcases List.mem_or_eq_of_mem_set mem with old | rfl
      · exact ih q old
      · exact AdminPc.next_guarded stepped
    · intro q mem
      rcases List.mem_append.mp mem with old | new
      · exact ih q old
      · rw [List.mem_singleton.mp new]
        intro _ started
        cases started
    · rw [same]
      exact ih

theorem World.next_removes {w w' : World} {m : Move} (moved : w.next dc lib m = some w') {path : GoString}
    (before : path ∈ w.store.names) (after : path ∉ w'.store.names) :
    ∃ hostname, AdminPc.delete hostname ∈ w.admins ∧ path = pathFromHost hostname := by
  have kept : ∀ {p : GoString} {chc : CredhubCert} {now : Int},
      w'.store = savePath w.store p chc now → False := by
    intro p chc now saved
    rw [saved, savePath, Store.mem_names_set] at after
    exact after (.inr before)
  rcases World.next_cases moved with ⟨c, pc, eff, -, stepped, applied⟩ |
    ⟨i, c, pc, pc', eff, -, found, stepped, applied⟩ | ⟨req, -, rfl⟩ | ⟨same, -, -⟩
  · rcases (World.apply_store applied).2.2 with ⟨p, chc, -, saved⟩ | ⟨p, rfl, -⟩ | same
    · exact (kept saved).elim
    · exact absurd stepped ScanPc.next_not_deleted
    · exact absurd (same ▸ before) after
  · rcases (World.apply_store applied).2.2 with ⟨p, chc, -, saved⟩ | ⟨p, rfl, erased⟩ | same
    · exact (kept saved).elim
    · obtain ⟨hostname, rfl, rfl⟩ := AdminPc.next_deleted stepped
      rw [erased, Store.mem_names_erase] at after
      refine ⟨hostname, List.getElem?_mem found, ?_⟩
      by_contra other
      exact after ⟨other, before⟩
    · exact absurd (same ▸ before) after
  · exact absurd before after
  · exact absurd (same ▸ before) after

end Invariants

/-- Every record the scan writes is the one `getCertAndSave` issued, with no challenge, for a fixed
host or a hostname decoded from a record its cycle's `FetchCerts` answered. -/
theorem scan_writes_fetched_hosts {dc : DaemonConf} {lib : CertLib} {w : World} (reached : Reachable dc lib w)
    {c : Choice} {pc : ScanPc} {path : GoString} {chc : CredhubCert}
    (saves : w.scan.next dc lib w.loop.now w.store c = some (pc, .saved path chc)) :
    chc.challenge = none ∧ ∃ b certs hostname todo retErr,
      w.scan = .renewing b certs hostname todo retErr (some (.save hostname chc)) ∧ path = pathFromHost hostname ∧
      (hostname ∈ dc.fixedHosts ∨ ∃ cert ∈ certs, hostname = hostFromPath cert.path) ∧
      ∃ cs pkey cert roots, chc = issuedRecord dc lib hostname cs pkey cert roots := by
  obtain ⟨b, certs, hostname, todo, retErr, h, current, rfl, -⟩ := ScanPc.next_saved saves
  have sound := reached.scan_sound
  rw [current] at sound
  obtain ⟨hosts, rfl, cs, pkey, cert, roots, rfl⟩ := sound
  exact ⟨(issuedRecord_fields dc lib h cs pkey cert roots).1, b, certs, h, todo, retErr, current, rfl,
    hosts h (List.mem_cons_self _ _), cs, pkey, cert, roots, rfl⟩

theorem first_cycle_writes_listed_host :
    ∃ w pc, Reachable exampleConf exampleLib w ∧
      w.scan.next exampleConf exampleLib w.loop.now w.store .ok = some (pc, .saved (pathFromHost (lit "a"))
        (issuedRecord exampleConf exampleLib (lit "a") (lit "acme") ⟨lit "key"⟩ (lit "cert") [])) ∧
      ((issuedRecord exampleConf exampleLib (lit "a") (lit "acme") ⟨lit "key"⟩ (lit "cert") []).challenge = none ∧
        ∃ b certs hostname todo retErr, w.scan = .renewing b certs hostname todo retErr (some (.save hostname
          (issuedRecord exampleConf exampleLib (lit "a") (lit "acme") ⟨lit "key"⟩ (lit "cert") []))) ∧
        pathFromHost (lit "a") = pathFromHost hostname ∧
        (hostname ∈ exampleConf.fixedHosts ∨ ∃ cert ∈ certs, hostname = hostFromPath cert.path) ∧
        ∃ cs pkey cert roots, issuedRecord exampleConf exampleLib (lit "a") (lit "acme") ⟨lit "key"⟩ (lit "cert") [] =
          issuedRecord exampleConf exampleLib hostname cs pkey cert roots) := by
  obtain ⟨w, reached, saves⟩ := reach_of_run exampleConf exampleLib (exampleStore "due")
    (List.replicate 8 (.scan .ok) ++ [.scan (.issued ⟨lit "key"⟩ [lit "cert"])])
    (fun w => (w.scan.next exampleConf exampleLib w.loop.now w.store .ok).map Prod.snd = some (.saved
      (pathFromHost (lit "a")) (issuedRecord exampleConf exampleLib (lit "a") (lit "acme") ⟨lit "key"⟩ (lit "cert") [])))
    (by decide)
  obtain ⟨⟨pc, _⟩, saved, rfl⟩ := Option.map_eq_some'.mp saves
  exact ⟨w, pc, reached, saved, scan_writes_fetched_hosts reached saved⟩

theorem canDelete_ne_fixed {dc : DaemonConf} {hostname fh : GoString} (deletable : dc.canDelete hostname = true)
    (fixed : fh = lit "proxy-bootstrap" ∨ fh = dc.ourHN) : pathFromHost hostname ≠ pathFromHost fh := by
  intro same
  rw [pathFromHost_injective same, DaemonConf.canDelete, (DaemonConf.isFixedHost_iff dc fh).mpr fixed] at deletable
  cases deletable

/-- No `DeletePath` is ever pending for a fixed host's path and no move removes its record, while a
delete request for a hostname that is not fixed deletes that hostname's record. -/
theorem fixed_hosts_never_deleted (dc : DaemonConf) (lib : CertLib) :
    (∀ w, Reachable dc lib w → ∀ hostname fh, AdminPc.delete hostname ∈ w.admins →
      (fh = lit "proxy-bootstrap" ∨ fh = dc.ourHN) → pathFromHost hostname ≠ pathFromHost fh) ∧
    (∀ w m w' fh, Reachable dc lib w → w.next dc lib m = some w' → (fh = lit "proxy-bootstrap" ∨ fh = dc.ourHN) →
      pathFromHost fh ∈ w.store.names → pathFromHost fh ∈ w'.store.names) ∧
    (∀ req s, req.action = lit "delete" → hostFromPath req.path ≠ [] →
      hostFromPath req.path ≠ lit "proxy-bootstrap" → hostFromPath req.path ≠ dc.ourHN →
      pathFromHost (hostFromPath req.path) ∈ s.names →
      AdminPc.begin dc req = .delete (hostFromPath req.path) ∧
      (AdminPc.delete (hostFromPath req.path)).next dc lib s .ok =
        some (AdminPc.flash "cert successfully deleted", .deleted (pathFromHost (hostFromPath req.path)))) := by
  have issued : ∀ w, Reachable dc lib w → ∀ hostname fh, AdminPc.delete hostname ∈ w.admins →
      (fh = lit "proxy-bootstrap" ∨ fh = dc.ourHN) → pathFromHost hostname ≠ pathFromHost fh :=
    fun w reached hostname fh pending fixed =>
      canDelete_ne_fixed (reached.admins_guarded _ pending hostname rfl).2 fixed
  refine ⟨issued, fun w m w' fh reached moved fixed before => ?_,
    fun req s delete decoded notBootstrap notOurs present => ?_⟩
  · by_contra after
    obtain ⟨hostname, pending, same⟩ := World.next_removes moved before after
    exact issued w reached hostname fh pending fixed same.symm
  · have deletable : dc.canDelete (hostFromPath req.path) = true := by
      simp [DaemonConf.canDelete, ← Bool.not_eq_true, DaemonConf.isFixedHost_iff, notBootstrap, notOurs]
    refine ⟨?_, ?_⟩
    · have : lit "delete" ≠ lit "create" := by decide
      simp [AdminPc.begin, delete, decoded, deletable, this]
    · simp [AdminPc.next, reach, deletePath, present]

/-- A delete of `a` pending while the record of the daemon's host `h` is stored removes `a` only. -/
theorem delete_a_keeps_own_record :
    ∃ w w', Reachable exampleConf exampleLib w ∧ AdminPc.delete (lit "a") ∈ w.admins ∧
      pathFromHost (lit "h") ∈ w.store.names ∧ w.next exampleConf exampleLib (.admin 0 .ok) = some w' ∧
      pathFromHost (lit "a") ∉ w'.store.names ∧
      pathFromHost (lit "a") ≠ pathFromHost (lit "h") ∧ pathFromHost (lit "h") ∈ w'.store.names := by
  obtain ⟨w, reached, pending, stored, deleted⟩ := reach_of_run exampleConf exampleLib (exampleStore "x")
    [.request ⟨lit "delete", [], pathFromHost (lit "a"), []⟩, .admin 0 .ok]
    (fun w => AdminPc.delete (lit "a") ∈ w.admins ∧ pathFromHost (lit "h") ∈ w.store.names ∧
      (w.next exampleConf exampleLib (.admin 0 .ok)).map (fun w' => decide (pathFromHost (lit "a") ∉ w'.store.names)) =
        some true)
    (by decide)
  obtain ⟨w', moved, gone⟩ := Option.map_eq_some'.mp deleted
  exact ⟨w, w', reached, pending, stored, moved, of_decide_eq_true gone,
    (fixed_hosts_never_deleted exampleConf exampleLib).1 w reached _ _ pending (.inr rfl),
    (fixed_hosts_never_deleted exampleConf exampleLib).2.1 w _ w' _ reached moved (.inr rfl) stored⟩

/-- In every reachable state the timer is set for the last `Reset` and is active with `t.C` empty, or
expired with that one tick in `t.C`: a failed `t.Stop()` always finds a tick to drain. -/
theorem timer_drain_never_blocks {dc : DaemonConf} {lib : CertLib} {w : World} (reached : Reachable dc lib w) :
    ∃ es, LoopRun Loop.init es w.loop ∧
      (w.loop.timer = ⟨some (dueAfter es), none⟩ ∨
        (w.loop.timer = ⟨none, some (dueAfter es)⟩ ∧ dueAfter es ≤ w.loop.now)) ∧
      (w.loop.timer.stop.1 = false → w.loop.timer.buffered.isSome) ∧
      w.loop.onSignal.pc = w.loop.pc ∧
      w.loop.onSignal.timer = ⟨some (w.loop.now + debounce), none⟩ ∧
      w.loop.onTick.timer = ⟨some (w.loop.now + park), none⟩ ∧
      ∀ tick, w.loop.timer.buffered = some tick → tick = dueAfter es ∧ tick ≤ w.loop.now := by
  obtain ⟨es, run⟩ := reached.loopRun
  have armed := run.debounced.armed
  refine ⟨es, run, armed, ?_, by rw [onSignal_armed armed], by rw [onSignal_armed armed], rfl, ?_⟩
  · rcases armed with active | ⟨fired, -⟩
    · simp [Timer.stop, active]
    · simp [fired]
  · intro tick waiting
    rcases armed with active | ⟨fired, due⟩
    · simp [active] at waiting
    · rw [fired] at waiting
      cases waiting
      exact ⟨rfl, due⟩

/-- At 5 s the timer has expired with its tick in `t.C`, so `t.Stop()` fails and the drain takes it. -/
theorem expired_timer_drains :
    ∃ w, Reachable exampleConf exampleLib w ∧ w.loop.pc = .select ∧ w.loop.timer = ⟨none, some initialDelay⟩ ∧
      w.loop.timer.stop.1 = false ∧ ∃ es, LoopRun Loop.init es w.loop ∧
        (w.loop.timer = ⟨some (dueAfter es), none⟩ ∨
          (w.loop.timer = ⟨none, some (dueAfter es)⟩ ∧ dueAfter es ≤ w.loop.now)) ∧
        (w.loop.timer.stop.1 = false → w.loop.timer.buffered.isSome) ∧
        w.loop.onSignal.pc = w.loop.pc ∧
        w.loop.onSignal.timer = ⟨some (w.loop.now + debounce), none⟩ ∧
        w.loop.onTick.timer = ⟨some (w.loop.now + park), none⟩ ∧
        ∀ tick, w.loop.timer.buffered = some tick → tick = dueAfter es ∧ tick ≤ w.loop.now := by
  obtain ⟨w, reached, waiting, expired, stopFails⟩ := reach_of_run exampleConf exampleLib (exampleStore "x")
    [.clock initialDelay, .fire]
    (fun w => w.loop.pc = .select ∧ w.loop.timer = ⟨none, some initialDelay⟩ ∧ w.loop.timer.stop.1 = false)
    (by decide)
  exact ⟨w, reached, waiting, expired, stopFails, timer_drain_never_blocks reached⟩

end LeResponder
