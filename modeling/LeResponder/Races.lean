import LeResponder.System

/-! Runs of the daemon on `exampleConf` that go wrong: an update is lost, the publish loop wedges,
or the scan keeps its short retry. -/
namespace LeResponder

def challengeAt (s : Store) (path : GoString) : Option AcmeChallenge :=
  match loadPath s path with
  | .ok chc => chc.challenge
  | .error _ => none

def scanToA : List Move := List.replicate 7 (.scan .ok)

/-- A request of `update` on the record of `a`. -/
def onA (action : String) : UpdateRequest := ⟨lit action, [], pathFromHost (lit "a"), []⟩

/-- After the first fan-out the operator deletes `a`: no signal is queued and the timer is parked,
while the observers still hold the certificate of `a`. -/
theorem deleted_cert_stays_published :
    ∃ w, Reachable exampleConf exampleLib w ∧
      w.loop = ⟨initialDelay, 0, ⟨some (initialDelay + park), none⟩, .select⟩ ∧
      w.scan = .sleeping true (3600 * second) ∧
      w.admins = [AdminPc.flash "cert successfully deleted"] ∧
      w.published = some (w.store.content ++ [⟨lit "a", lit "k", lit "x", []⟩]) :=
  reach_of_run exampleConf exampleLib (exampleStore "x") (scanToA ++ [.scan .ok, .clock initialDelay, .fire, .expire] ++
    List.replicate 5 (.publish .ok) ++ [.request (onA "delete"), .admin 0 .ok, .admin 0 .ok]) _ (by decide)

/-- A manual challenge on `a` started while the scan renews it is overwritten by the scan's save. -/
theorem renewal_overwrites_pending_challenge :
    ∃ w, Reachable exampleConf exampleLib w ∧
      (challengeAt w.store (pathFromHost (lit "a"))).isSome ∧
      ∃ w', w.next exampleConf exampleLib (.scan .ok) = some w' ∧
        w'.store.find? (pathFromHost (lit "a")) =
          some (.cert (issuedRecord exampleConf exampleLib (lit "a") (lit "acme") ⟨lit "key"⟩ (lit "cert") []) 0) := by
  obtain ⟨w, reached, challenged, saved⟩ := reach_of_run exampleConf exampleLib (exampleStore "due")
    (scanToA ++ [.scan .ok, .request (onA "manual"), .admin 0 .ok, .admin 0 .ok,
      .admin 0 (.started ⟨lit "dns", none, none⟩), .admin 0 .ok, .scan (.issued ⟨lit "key"⟩ [lit "cert"])])
    (fun w => (challengeAt w.store (pathFromHost (lit "a"))).isSome ∧
      (w.next exampleConf exampleLib (.scan .ok)).map (fun w' => w'.store.find? (pathFromHost (lit "a"))) =
        some (some (.cert (issuedRecord exampleConf exampleLib (lit "a") (lit "acme") ⟨lit "key"⟩ (lit "cert") []) 0)))
    (by decide)
  obtain ⟨w', moved, found⟩ := Option.map_eq_some'.mp saved
  exact ⟨w, reached, challenged, w', moved, found⟩

/-- `a` deleted after the scan listed it: its `LoadPath` answers not found, and the scan issues from
the bootstrap source and saves under the freed path. -/
theorem scan_recreates_deleted_record :
    ∃ w, Reachable exampleConf exampleLib w ∧ w.admins = [AdminPc.flash "cert successfully deleted"] ∧
      pathFromHost (lit "a") ∉ w.store.names ∧ exampleConf.isFixedHost (lit "a") = false ∧
      ∃ w', w.next exampleConf exampleLib (.scan .ok) = some w' ∧
        w'.store.find? (pathFromHost (lit "a")) =
          some (.cert (issuedRecord exampleConf exampleLib (lit "a") (lit "acme") ⟨lit "key"⟩ (lit "cert") []) 0) := by
  obtain ⟨w, reached, deleted, absent, notFixed, saved⟩ := reach_of_run exampleConf exampleLib (exampleStore "x")
    (scanToA ++ [.request (onA "delete"), .admin 0 .ok, .admin 0 .ok, .scan .ok, .scan (.issued ⟨lit "key"⟩ [lit "cert"])])
    (fun w => w.admins = [AdminPc.flash "cert successfully deleted"] ∧ pathFromHost (lit "a") ∉ w.store.names ∧
      exampleConf.isFixedHost (lit "a") = false ∧
      (w.next exampleConf exampleLib (.scan .ok)).map (fun w' => w'.store.find? (pathFromHost (lit "a"))) =
        some (some (.cert (issuedRecord exampleConf exampleLib (lit "a") (lit "acme") ⟨lit "key"⟩ (lit "cert") []) 0)))
    (by decide)
  obtain ⟨w', moved, found⟩ := Option.map_eq_some'.mp saved
  exact ⟨w, reached, deleted, absent, notFixed, w', moved, found⟩

/-- 'create' takes any failed `LoadPath` for a missing record and saves an empty one; 'auto' reads
the nil record and panics. -/
theorem create_overwrites_after_failed_load :
    (∀ (dc : DaemonConf) (lib : CertLib) (s : Store) (c : Choice) (hostname source : GoString) (e : Err),
      reach c (loadPath s (pathFromHost hostname)) = .error e →
        (source ≠ [] → (AdminPc.createLoad hostname source).next dc lib s c =
          some (.createSave hostname source, .none)) ∧
        (AdminPc.autoLoad hostname).next dc lib s c = some (.panicked, .none)) ∧
    (exampleStore "x").find? (pathFromHost (lit "a")) = some (.cert (exampleRecord "x") 0) ∧
    ∃ w, Reachable exampleConf exampleLib w ∧
      w.store.find? (pathFromHost (lit "a")) = some (.cert (CredhubCert.empty (lit "acme")) 0) ∧
      w.admins = [.finished none, .panicked] := by
  refine ⟨fun dc lib s c hostname source e failed => ⟨fun given => ?_, ?_⟩, by decide, ?_⟩
  · simp [AdminPc.next, failed, given]
  · simp [AdminPc.next, failed]
  exact reach_of_run exampleConf exampleLib (exampleStore "x")
    [.request ⟨lit "create", lit "a", [], lit "acme"⟩, .admin 0 .ok, .admin 0 .unreachable, .admin 0 .ok,
      .request (onA "auto"), .admin 1 .ok, .admin 1 .unreachable] _ (by decide)

/-- The publish loop stands at its retry send with `updateRequests` full. -/
def Wedged (w : World) : Prop := w.loop.pc = .retry ∧ w.loop.queued = capacity

section Wedge

variable {dc : DaemonConf} {lib : CertLib}

/-- The publish loop is the only receiver of `updateRequests`: once it waits on a full channel, no
move gets it out. -/
theorem Wedged.next {w w' : World} {m : Move} (wedged : Wedged w) (moved : w.next dc lib m = some w') :
    Wedged w' := by
  obtain ⟨retry, full⟩ := wedged
  have keeps : ∀ {v : World} {eff : Effect}, v.apply eff = some w' → v.loop = w.loop → Wedged w' := by
    intro v eff applied same
    rcases World.apply_loop applied with kept | ⟨-, room, -⟩
    · exact ⟨by rw [kept, same, retry], by rw [kept, same, full]⟩
    · rw [same, full] at room; exact absurd room (Nat.lt_irrefl _)
  cases (World.next_eq_some.mp moved).2 with
  | clock | fire | request => exact ⟨retry, full⟩
  | receive waiting | expire waiting | fanOut _ waiting => simp [retry] at waiting
  | retry _ _ room => simp [full] at room
  | scan _ c pc eff _ applied => exact keeps applied rfl
  | admin _ i c pc pc' eff _ _ applied => exact keeps applied rfl

theorem Wedged.run {w w' : World} {ms : List Move} (wedged : Wedged w) (ran : w.run dc lib ms = some w') :
    Wedged w' := by
  induction ms generalizing w with
  | nil => cases ran; exact wedged
  | cons m ms ih =>
    simp only [World.run, Option.bind_eq_some] at ran
    obtain ⟨w₁, moved, rest⟩ := ran
    exact ih (wedged.next moved) rest

theorem Wedged.blocks {w : World} (wedged : Wedged w) (c : Choice) : w.next dc lib (.publish c) = none := by
  unfold World.next
  split
  · rfl
  · simp [World.step, wedged.1, wedged.2]

end Wedge

/-- A request 'auto' on `a`, run to its end by the goroutine it starts, number `i`. -/
def autoRound (i : Nat) : List Move :=
  [.request (onA "auto"), .admin i .ok, .admin i .ok, .admin i (.issued ⟨lit "key"⟩ [lit "cert"]),
    .admin i .ok, .admin i .ok]

def autoRounds (i : Nat) : Nat → List Move
  | 0 => []
  | n + 1 => autoRound i ++ autoRounds (i + 1) n

theorem acme_configured : (lookupIn exampleConf.certFactories (lit "acme")).isSome = true := by decide

theorem begin_auto : AdminPc.begin exampleConf (onA "auto") = .autoLoad (lit "a") := by decide

def afterAuto (w : World) : World :=
  { w with
    store := savePath w.store (pathFromHost (lit "a"))
      (issuedRecord exampleConf exampleLib (lit "a") (lit "acme") ⟨lit "key"⟩ (lit "cert") []) w.loop.now,
    admins := w.admins ++ [AdminPc.flash "cert successfully renewed"],
    loop := { w.loop with queued := w.loop.queued + 1 } }

theorem auto_round (w : World) (fetching : w.scan = .fetching false .listing)
    (room : w.loop.queued < capacity) (chd : CredhubCert)
    (loaded : loadPath w.store (pathFromHost (lit "a")) = .ok chd) (acme : chd.source = lit "acme") :
    w.run exampleConf exampleLib (autoRound w.admins.length) = some (afterAuto w) := by
  have live : w.scan ≠ .crashed := by rw [fetching]; decide
  rw [autoRound]
  iterate 6
    rw [World.run.eq_2]
    simp only [World.next, live, ↓reduceIte, World.step, List.getElem?_concat_length, List.set_append_right, le_refl,
      Nat.sub_self, List.set_cons_zero, Option.some_bind, AdminPc.next, begin_auto, reach, loaded, acme, CertPc.next,
      acme_configured, Option.map_some', World.apply, room, AdminPc.inGetCertAndSave, Effect.writes, Bool.not_false,
      Bool.not_true, Bool.false_and, Bool.true_and, Bool.or_false]
  rfl

theorem auto_rounds (n : Nat) (w : World) (fetching : w.scan = .fetching false .listing)
    (room : w.loop.queued + n ≤ capacity)
    (loaded : ∃ chd, loadPath w.store (pathFromHost (lit "a")) = .ok chd ∧ chd.source = lit "acme") :
    ∃ w', w.run exampleConf exampleLib (autoRounds w.admins.length n) = some w' ∧ w'.scan = w.scan ∧
      w'.reading = w.reading ∧ w'.loop.pc = w.loop.pc ∧ w'.loop.queued = w.loop.queued + n := by
  induction n generalizing w with
  | zero => exact ⟨w, rfl, rfl, rfl, rfl, rfl⟩
  | succ n ih =>
    obtain ⟨chd, hload, acme⟩ := loaded
    obtain ⟨w', ran, scan, reading, pc, queued⟩ := ih (afterAuto w) fetching
      (by simp only [afterAuto]; omega) ⟨_, loadPath_savePath _ _ _ _, rfl⟩
    rw [autoRounds, World.run_append, auto_round w fetching (by omega) chd hload acme, Option.some_bind]
    simp only [afterAuto, List.length_append, List.length_singleton] at ran queued
    exact ⟨w', ran, scan, reading, pc, by omega⟩

def fanningOut : World :=
  { World.init (exampleStore "x") with loop := ⟨initialDelay, 0, ⟨some (initialDelay + park), none⟩, .fanOut⟩ }

/-- A thousand 'auto' requests signal while the first fan-out runs; it fails, and the loop's retry
send blocks on the full channel for good. -/
theorem retry_send_blocks_forever :
    ∃ w, Reachable exampleConf exampleLib w ∧ ∀ ms w', w.run exampleConf exampleLib ms = some w' →
      w'.loop.pc = .retry ∧ w'.loop.queued = capacity ∧ ∀ c, w'.next exampleConf exampleLib (.publish c) = none := by
  have started : (World.init (exampleStore "x")).run exampleConf exampleLib [.clock initialDelay, .fire, .expire] =
      some fanningOut := rfl
  obtain ⟨w, ran, scan, reading, pc, queued⟩ := auto_rounds capacity fanningOut rfl (by decide)
    ⟨_, rfl, rfl⟩
  let failed : World := { w with loop := { w.loop with pc := .retry } }
  have fails : w.run exampleConf exampleLib [.publish .unreachable] = some failed := by
    simp [World.run, World.next, World.step, scan, pc, reading, fanningOut, World.init, World.fanOut,
      FetchPc.next, reach, Except.map, failed]
  have wedged : Wedged failed := ⟨rfl, by simp [failed, queued, fanningOut, Loop.init]⟩
  have ran : fanningOut.run exampleConf exampleLib (autoRounds 0 capacity) = some w := ran
  have whole : (World.init (exampleStore "x")).run exampleConf exampleLib
      ([.clock initialDelay, .fire, .expire] ++ autoRounds 0 capacity ++ [.publish .unreachable]) = some failed := by
    rw [World.run_append, World.run_append, started, Option.some_bind, ran, Option.some_bind, fails]
  refine ⟨failed, (Reachable.init _).run whole, fun ms w' later => ?_⟩
  have stuck := wedged.run later
  exact ⟨stuck.1, stuck.2, stuck.blocks⟩


/-- A cycle that reached the store but failed a renewal does not count as bootstrapped: a later
communication error makes the scan sleep 15 s. -/
theorem short_sleep_after_store_reached :
    ∃ w, Reachable exampleConf exampleLib w ∧
      (fetchCerts w.store).toOption.map (fun certs => ScanPc.renewing false certs (lit "a") [] none
        (some (.issue (lit "a") (lit "acme") .auto))) = some w.scan ∧
      (w.run exampleConf exampleLib [.scan (.failed (.external (lit "acme: 503 Service Unavailable")))]).map
        (·.scan) = some (.sleeping false (3600 * second)) ∧
      (w.run exampleConf exampleLib [.scan (.failed (.external (lit "acme: 503 Service Unavailable"))),
        .clock (3600 * second), .scan .ok, .scan .unreachable]).map (·.scan) =
        some (.sleeping false (3600 * second + 15 * second)) :=
  reach_of_run exampleConf exampleLib (exampleStore "due") (List.replicate 8 (.scan .ok)) _ (by decide)

end LeResponder
