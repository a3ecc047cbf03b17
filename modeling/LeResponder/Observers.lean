import LeResponder.Publication
import LeResponder.AdminUi

/-! The daemon as `newConf` wires it, the admin server and the output observer being the observers
of the publish loop: whenever it is idle, both hold the store's content. -/
namespace LeResponder

/-- What the libraries answer the observers: `tls.X509KeyPair`, the tar writer's `WriteHeader`,
and the tar and gzip encoding. -/
structure ObserverLib (τ : Type) where
  x509KeyPair : GoString → GoString → Except Err τ
  writeHeader : TarHeader → Option Err
  archive : List TarEntry → List UInt8

structure Wired (τ : Type) where
  world : World
  admin : AdminServer τ
  buckets : List Bucket

/-- A move of `World` but the fan-out's last step, or that step with what AWS answers each `Put`. -/
inductive WiredMove where
  | world (m : Move)
  | observe (answer : Nat → PutAnswer)

/-- The records the fan-out's `FetchCerts` returned, once it has made its last request. -/
def World.fetched (w : World) : Option (List CredhubCert) :=
  match w.loop.pc, w.reading with
  | .fanOut, .loading [] got => some got
  | _, _ => none

def Move.publishes : Move → Bool
  | .publish _ => true
  | _ => false

/-- The choice `World.fanOut` takes for the error `updateObservers` returned. -/
def Choice.ofError : Option Err → Choice
  | some e => .failed e
  | none => .ok

/-- A fan-out is on its way with no further write. -/
def Loop.Pending (l : Loop) : Prop := 0 < l.queued ∨ l.Due

namespace Wired

variable {τ : Type} (dc : DaemonConf) (lib : CertLib) (obs : ObserverLib τ)

/-- `newConf`, then `RunForever`, on the store `s` with `n` buckets. -/
def init (s : Store) (n : Nat) : Wired τ :=
  ⟨World.init s, ⟨dc.ourHN, none⟩, List.replicate n ⟨false, []⟩⟩

/-- `newConf` once the YAML is read: the admin URL's hostname, the CredHub client's `Init`, then
the `Init` of each part, of which only the daemon's can fail. -/
def newConf (parsePKCS1PrivateKey : List UInt8 → Except Err Unit) (externalHost : Except Err GoString)
    (credHubInit : Option Err) (daysBefore period : BitVec 64) (bootstrapSource : GoString)
    (sm : List (GoString × SourceConf)) (s : Store) (n : Nat) : Except Err (DaemonConf × Wired τ) :=
  match externalHost with
  | .error e => .error e
  | .ok hn =>
    if hn = [] then .error .adminUrlNotSpecified
    else
      match credHubInit with
      | some e => .error e
      | none =>
        (DaemonConf.init lib parsePKCS1PrivateKey daysBefore period bootstrapSource hn sm).map
          fun dc => (dc, ⟨World.init s, ⟨hn, none⟩, List.replicate n ⟨false, []⟩⟩)

/-- The observers `newConf` hands `Daemon.Init`: the admin server, then the output observer. -/
def observers (answer : Nat → PutAnswer) :
    List (AdminServer τ × List Bucket → List CredhubCert → Option Err × (AdminServer τ × List Bucket)) :=
  [fun st certs => ((st.1.certsAreUpdated obs.x509KeyPair certs).1, (st.1.certsAreUpdated obs.x509KeyPair certs).2, st.2),
    fun st certs => ((certsAreUpdated dc obs.writeHeader obs.archive answer st.2 certs).1, st.1,
      (certsAreUpdated dc obs.writeHeader obs.archive answer st.2 certs).2.2)]

/-- `updateObservers` once `FetchCerts` returned `certs`. -/
def observe (d : Wired τ) (answer : Nat → PutAnswer) (certs : List CredhubCert) : FanOut (AdminServer τ × List Bucket) :=
  updateObservers (.ok certs) (observers dc obs answer) (d.admin, d.buckets)

/-- One move of the wired daemon. -/
def next (d : Wired τ) : WiredMove → Option (Wired τ)
  | .world m =>
    if m.publishes && d.world.fetched.isSome then none
    else (d.world.next dc lib m).map fun w => { d with world := w }
  | .observe answer =>
    match d.world.fetched with
    | none => none
    | some certs =>
      (d.world.next dc lib (.publish (Choice.ofError (d.observe dc obs answer certs).retErr))).map
        fun w => ⟨w, (d.observe dc obs answer certs).state.1, (d.observe dc obs answer certs).state.2⟩

def run (d : Wired τ) : List WiredMove → Option (Wired τ)
  | [] => some d
  | m :: ms => (d.next dc lib obs m).bind fun d => d.run ms

/-- The states the wired daemon reaches from some store and some buckets. -/
inductive Reachable : Wired τ → Prop where
  | init (s : Store) (n : Nat) : Reachable (init dc s n)
  | step {d d' : Wired τ} (m : WiredMove) : Reachable d → d.next dc lib obs m = some d' → Reachable d'

structure Serves (d : Wired τ) (certs : List CredhubCert) : Prop where
  admin : ∀ cert, certs.find? (fun cert => hostFromPath cert.path = d.admin.ourHostname) = some cert →
    ∃ tlsCert, keyPairOf obs.x509KeyPair cert = .ok tlsCert ∧ d.admin.ourCert = some tlsCert
  buckets : ∃ entries, createTarball dc obs.writeHeader certs = .ok entries ∧
    ∀ b ∈ d.buckets, b.lastSuccessfulWritten = obs.archive entries

/-- The invariant of the wired daemon: when the loop is idle, the observers hold what the last
fan-out published. -/
structure Settled (d : Wired τ) : Prop where
  hostname : d.admin.ourHostname = dc.ourHN
  idle : d.world.loop.pc = .select →
    d.world.loop.Pending ∨ ∃ certs, d.world.published = some (certsContent certs) ∧ d.Serves dc obs certs

end Wired

section Fetched

variable {w : World} {certs : List CredhubCert}

theorem FetchPc.next_eq_inr {s : Store} {c : Choice} {pc : FetchPc} (stepped : pc.next s c = .ok (.inr certs)) :
    pc = .loading [] certs := by
  cases pc with
  | listing => cases listed : reach c (.ok (getCredList s)) <;> simp [FetchPc.next, listed, Except.map] at stepped
  | loading todo got =>
    cases todo with
    | nil => cases stepped; rfl
    | cons name todo => cases read : reach c (loadPath s name) <;> simp [FetchPc.next, read, Except.map] at stepped

theorem World.fetched_eq_some : w.fetched = some certs ↔ w.loop.pc = .fanOut ∧ w.reading = .loading [] certs := by
  unfold World.fetched
  split <;> simp_all

theorem World.fanOut_fetched (fetched : w.fetched = some certs) (e : Option Err) :
    w.fanOut (Choice.ofError e) = match e with
      | some _ => { w with loop := { w.loop with pc := .retry } }
      | none => { w with loop := { w.loop with pc := .select }, published := some (certsContent certs) } := by
  have reading := (World.fetched_eq_some.mp fetched).2
  cases e <;> simp only [World.fanOut, Choice.ofError, reading, FetchPc.next]

/-- After `FetchCerts` returned, the fan-out ends at its retry send exactly when a call of
`updateObservers` failed, and otherwise at its `select`. -/
theorem World.fanOut_updateObservers {σ : Type} (fetched : w.fetched = some certs)
    (observers : List (σ → List CredhubCert → Option Err × σ)) (s : σ) :
    ((w.fanOut (Choice.ofError (updateObservers (.ok certs) observers s).retErr)).loop.pc = .retry ↔
      ∃ call ∈ (updateObservers (.ok certs) observers s).calls, call.2 ≠ none) ∧
    ((w.fanOut (Choice.ofError (updateObservers (.ok certs) observers s).retErr)).loop.pc = .select ↔
      ∀ call ∈ (updateObservers (.ok certs) observers s).calls, call.2 = none) := by
  have accepted := @retErr_eq_none_iff σ certs observers s
  rw [World.fanOut_fetched fetched]
  cases failed : (updateObservers (.ok certs) observers s).retErr with
  | none => simpa [failed] using accepted
  | some e =>
    rw [failed] at accepted
    simpa using accepted

theorem World.fanOut_unfetched (fetching : w.fetched = none) (fanning : w.loop.pc = .fanOut) (c : Choice) :
    (w.fanOut c).loop.pc ≠ .select := by
  unfold World.fanOut
  split <;> rename_i read
  · exact fun settled => by simp [fanning] at settled
  · have fetched := World.fetched_eq_some.mpr ⟨fanning, FetchPc.next_eq_inr read⟩
    rw [fetching] at fetched
    cases fetched
  · nofun

end Fetched

section Idle

variable {dc : DaemonConf} {lib : CertLib} {w w' : World}

theorem World.idle_of_same (same : w'.loop = w.loop) (published : w'.published = w.published)
    (waiting : w'.loop.pc = .select) :
    w'.loop.Pending ∨ w.loop.pc = .select ∧ ¬ w.loop.Pending ∧ w'.published = w.published := by
  rw [same] at waiting ⊢
  by_cases pending : w.loop.Pending
  · exact .inl pending
  · exact .inr ⟨waiting, pending, published⟩

theorem World.apply_idle {v : World} {eff : Effect} (applied : v.apply eff = some w') :
    w'.loop.Pending ∨ w'.loop = v.loop ∧ w'.published = v.published := by
  cases eff with
  | send =>
    simp only [World.apply] at applied
    split at applied
    · cases applied; exact .inl (.inl (Nat.succ_pos _))
    · cases applied
  | _ => cases applied; exact .inr ⟨rfl, rfl⟩

theorem World.next_idle {m : Move} (moved : w.next dc lib m = some w')
    (notLast : w.fetched = none ∨ m.publishes = false) (waiting : w'.loop.pc = .select) :
    w'.loop.Pending ∨ w.loop.pc = .select ∧ ¬ w.loop.Pending ∧ w'.published = w.published := by
  have sent : ∀ {v : World} {eff : Effect}, v.apply eff = some w' → v.loop = w.loop → v.published = w.published →
      w'.loop.Pending ∨ w.loop.pc = .select ∧ ¬ w.loop.Pending ∧ w'.published = w.published := by
    intro v eff applied loop published
    rcases World.apply_idle applied with pending | ⟨same, same'⟩
    · exact .inl pending
    · exact World.idle_of_same (same.trans loop) (same'.trans published) waiting
  cases (World.next_eq_some.mp moved).2 with
  | clock t later =>
    by_cases pending : w.loop.Pending
    · rcases pending with queued | buffered | ⟨d, armed, soon⟩
      · exact .inl (.inl queued)
      · exact .inl (.inr (.inl buffered))
      · exact .inl (.inr (.inr ⟨d, armed, by simp only at soon ⊢; omega⟩))
    · exact .inr ⟨waiting, pending, rfl⟩
  | fire d armed _ =>
    refine .inl (.inr (.inl ?_))
    simp only [Timer.fire, armed]
    cases w.loop.timer.buffered <;> rfl
  | receive =>
    rcases Loop.onSignal_due w.loop with blocked | ⟨_, due⟩
    · exact absurd (blocked.symm.trans waiting) nofun
    · exact .inl (.inr due)
  | expire => exact absurd waiting nofun
  | fanOut c fanning =>
    rcases notLast with fetching | notPublish
    · exact absurd waiting (World.fanOut_unfetched fetching fanning c)
    · cases notPublish
  | retry => exact .inl (.inl (Nat.succ_pos _))
  | scan _ c pc eff _ applied => exact sent applied rfl rfl
  | request req => exact World.idle_of_same rfl rfl waiting
  | admin _ i c pc pc' eff _ _ applied => exact sent applied rfl rfl

end Idle

namespace Wired

variable {τ : Type} {dc : DaemonConf} {lib : CertLib} {obs : ObserverLib τ} {d d' : Wired τ}

theorem Serves.frame {certs : List CredhubCert} (served : d.Serves dc obs certs) (w : World) :
    ({ d with world := w } : Wired τ).Serves dc obs certs :=
  ⟨served.admin, served.buckets⟩

theorem observe_eq (answer : Nat → PutAnswer) (certs : List CredhubCert) :
    d.observe dc obs answer certs =
      ⟨[(certs, (d.admin.certsAreUpdated obs.x509KeyPair certs).1),
          (certs, (certsAreUpdated dc obs.writeHeader obs.archive answer d.buckets certs).1)],
        (certsAreUpdated dc obs.writeHeader obs.archive answer d.buckets certs).1.or
          (d.admin.certsAreUpdated obs.x509KeyPair certs).1,
        (d.admin.certsAreUpdated obs.x509KeyPair certs).2,
        (certsAreUpdated dc obs.writeHeader obs.archive answer d.buckets certs).2.2⟩ := by
  simp only [observe, observers, updateObservers, List.foldl, FanOut.call, List.nil_append, List.cons_append,
    Option.or_none]

/-- When `updateObservers` returns nil, both observers accepted the records and serve them. -/
theorem observe_accepted {answer : Nat → PutAnswer} {certs : List CredhubCert}
    (accepted : (d.observe dc obs answer certs).retErr = none) (w : World) :
    (⟨w, (d.observe dc obs answer certs).state.1, (d.observe dc obs answer certs).state.2⟩ : Wired τ).Serves dc obs certs := by
  have both : ∀ call ∈ (d.observe dc obs answer certs).calls, call.2 = none := (retErr_eq_none_iff _ _).mp accepted
  rw [observe_eq] at both ⊢
  refine ⟨fun cert own => ?_, certsAreUpdated_accepted (both _ (List.mem_cons_of_mem _ (List.mem_singleton_self _)))⟩
  rw [certsAreUpdated_ourHostname] at own
  exact AdminServer.certsAreUpdated_accepted obs.x509KeyPair (both _ (List.mem_cons_self _ _)) own

theorem next_cases {m : WiredMove} (moved : d.next dc lib obs m = some d') :
    (∃ m' w', m = .world m' ∧ (d.world.fetched = none ∨ m'.publishes = false) ∧ d.world.next dc lib m' = some w' ∧
      d' = { d with world := w' }) ∨
    ∃ answer certs w', m = .observe answer ∧ d.world.fetched = some certs ∧
      d.world.next dc lib (.publish (Choice.ofError (d.observe dc obs answer certs).retErr)) = some w' ∧
      d' = ⟨w', (d.observe dc obs answer certs).state.1, (d.observe dc obs answer certs).state.2⟩ := by
  cases m with
  | world m' =>
    simp only [next] at moved
    split at moved <;> rename_i last
    · cases moved
    · obtain ⟨w', stepped, rfl⟩ := Option.map_eq_some'.mp moved
      refine .inl ⟨m', w', rfl, ?_, stepped, rfl⟩
      cases fetched : d.world.fetched <;> simp_all
  | observe answer =>
    simp only [next] at moved
    split at moved <;> rename_i fetched
    · cases moved
    · obtain ⟨w', stepped, rfl⟩ := Option.map_eq_some'.mp moved
      exact .inr ⟨answer, _, w', rfl, fetched, stepped, rfl⟩

/-- The fan-out's last step of the wired daemon is that of `World` on the error of the observers. -/
theorem next_observe {answer : Nat → PutAnswer} {certs : List CredhubCert} (fetched : d.world.fetched = some certs)
    (moved : d.next dc lib obs (.observe answer) = some d') :
    d' = ⟨d.world.fanOut (Choice.ofError (d.observe dc obs answer certs).retErr),
      (d.observe dc obs answer certs).state.1, (d.observe dc obs answer certs).state.2⟩ := by
  simp only [next, fetched, Option.map_eq_some'] at moved
  obtain ⟨w', stepped, rfl⟩ := moved
  have alive := (World.next_eq_some.mp stepped).1
  simp only [World.next, World.step, alive, (World.fetched_eq_some.mp fetched).1, if_false,
    Option.some.injEq] at stepped
  rw [stepped]

theorem next_world {m : WiredMove} (moved : d.next dc lib obs m = some d') : ∃ m', d.world.next dc lib m' = some d'.world := by
  rcases next_cases moved with ⟨m', w', -, -, stepped, rfl⟩ | ⟨_, _, w', -, -, stepped, rfl⟩
  · exact ⟨m', stepped⟩
  · exact ⟨_, stepped⟩

theorem Reachable.world (reached : Reachable dc lib obs d) : LeResponder.Reachable dc lib d.world := by
  induction reached with
  | init s n => exact .init s
  | step _ _ moved ih =>
    obtain ⟨m', stepped⟩ := next_world moved
    exact ih.step m' stepped

theorem Reachable.run {ms : List WiredMove} (reached : Reachable dc lib obs d) (ran : d.run dc lib obs ms = some d') :
    Reachable dc lib obs d' := by
  induction ms generalizing d with
  | nil => cases ran; exact reached
  | cons m ms ih =>
    simp only [run, Option.bind_eq_some] at ran
    obtain ⟨d₁, moved, rest⟩ := ran
    exact ih (reached.step m moved) rest

/-- Every daemon `newConf` builds is a start of the wired daemon. -/
theorem newConf_reachable {parsePKCS1PrivateKey : List UInt8 → Except Err Unit} {externalHost : Except Err GoString}
    {credHubInit : Option Err} {daysBefore period : BitVec 64} {bootstrapSource : GoString}
    {sm : List (GoString × SourceConf)} {s : Store} {n : Nat}
    (built : newConf lib parsePKCS1PrivateKey externalHost credHubInit daysBefore period bootstrapSource sm s n =
      .ok (dc, d)) :
    Reachable dc lib obs d := by
  rcases externalHost with e | hn
  · cases built
  by_cases blank : hn = []
  · simp [newConf, blank] at built
  cases credHubInit with
  | some e => simp [newConf, blank] at built
  | none =>
    cases initialised : DaemonConf.init lib parsePKCS1PrivateKey daysBefore period bootstrapSource hn sm with
    | error e => simp [newConf, blank, initialised, Except.map] at built
    | ok dc' =>
      simp [newConf, blank, initialised, Except.map] at built
      obtain ⟨rfl, rfl⟩ := built
      obtain ⟨-, -, _, -, -, rfl⟩ := init_ok_iff.mp initialised
      exact Reachable.init s n

theorem Reachable.reach_of_run (reached : Reachable dc lib obs d) (ms : List WiredMove) (p : Wired τ → Prop)
    [DecidablePred p] (ran : (d.run dc lib obs ms).map (fun d => decide (p d)) = some true) :
    ∃ d, Reachable dc lib obs d ∧ p d := by
  cases h : d.run dc lib obs ms with
  | none => simp [h] at ran
  | some d' =>
    simp only [h, Option.map_some', Option.some.injEq, decide_eq_true_eq] at ran
    exact ⟨d', reached.run h, ran⟩

theorem Settled.init (s : Store) (n : Nat) : (init dc s n : Wired τ).Settled dc obs :=
  ⟨rfl, fun _ => .inl (.inr (.inr ⟨initialDelay, rfl, (by decide : initialDelay ≤ 0 + debounce)⟩))⟩

theorem Settled.next {m : WiredMove} (settled : d.Settled dc obs) (moved : d.next dc lib obs m = some d') :
    d'.Settled dc obs := by
  rcases next_cases moved with ⟨m', w', -, notLast, stepped, rfl⟩ | ⟨answer, certs, -, rfl, fetched, -, -⟩
  · refine ⟨settled.hostname, fun waiting => ?_⟩
    rcases World.next_idle stepped notLast waiting with pending | ⟨idle, quiet, published⟩
    · exact .inl pending
    · rcases settled.idle idle with pending | ⟨certs, delivered, served⟩
      · exact absurd pending quiet
      · exact .inr ⟨certs, published.trans delivered, served.frame w'⟩
  · obtain rfl := next_observe fetched moved
    refine ⟨by simpa only [observe_eq, certsAreUpdated_ourHostname] using settled.hostname, fun waiting => ?_⟩
    rw [World.fanOut_fetched fetched] at waiting ⊢
    cases accepted : (d.observe dc obs answer certs).retErr with
    | some e => simp [accepted] at waiting
    | none => exact .inr ⟨certs, by simp [accepted], observe_accepted accepted _⟩

theorem Reachable.settled (reached : Reachable dc lib obs d) : d.Settled dc obs := by
  induction reached with
  | init s n => exact Settled.init s n
  | step _ _ moved ih => exact ih.next moved

/-- Whenever the wired daemon is idle, every S3 bucket holds the tarball of the store's content and
the admin listener serves the key pair of its own record. -/
theorem idle_observers_hold_store (reached : Reachable dc lib obs d) (waiting : d.world.loop.pc = .select)
    (quiet : d.world.loop.queued = 0) (notDue : ¬ d.world.loop.Due) (owesNone : ¬ d.world.Owes)
    (signalled : d.world.unsignalled = false) :
    ∃ certs entries, certsContent certs = d.world.store.content ∧
      createTarball dc obs.writeHeader certs = .ok entries ∧
      (∀ b ∈ d.buckets, b.lastSuccessfulWritten = obs.archive entries) ∧
      ∀ cert, certs.find? (fun cert => hostFromPath cert.path = dc.ourHN) = some cert →
        ∃ tlsCert, keyPairOf obs.x509KeyPair cert = .ok tlsCert ∧ d.admin.getCertificate = .ok tlsCert := by
  have settled := reached.settled
  have fresh := reached.world.fresh
  simp only [World.Fresh, waiting, World.Owed, quiet, signalled] at fresh
  rcases settled.idle waiting with pending | ⟨certs, delivered, served⟩
  · rcases pending with queued | due
    · rw [quiet] at queued; cases queued
    · exact absurd due notDue
  · rcases fresh with current | due | queued | owes | unsignalled
    · obtain ⟨entries, made, held⟩ := served.buckets
      refine ⟨certs, entries, Option.some.inj (delivered.symm.trans current), made, held, fun cert own => ?_⟩
      rw [← settled.hostname] at own
      obtain ⟨tlsCert, parsed, installed⟩ := served.admin cert own
      exact ⟨tlsCert, parsed, by simp [AdminServer.getCertificate, installed]⟩
    · exact absurd due notDue
    · cases queued
    · exact absurd owes owesNone
    · cases unsignalled

/-- A fan-out whose `FetchCerts` failed calls no observer and retries; otherwise `updateObservers`
calls every observer once in order with the same records, and the loop makes its one retry send
exactly when a call failed, also for the wired daemon's two observers. -/
theorem fanOut_calls_every_observer (dc : DaemonConf) (lib : CertLib) {σ : Type}
    (observers : List (σ → List CredhubCert → Option Err × σ)) (s : σ) :
    (∀ (w : World) c e, w.loop.pc = .fanOut → w.reading.next w.store c = .error e →
      updateObservers (.error e) observers s = ⟨[], some e, s⟩ ∧ (w.fanOut c).loop.pc = .retry) ∧
    (∀ (w : World) certs, w.fetched = some certs →
      (updateObservers (.ok certs) observers s).calls.length = observers.length ∧
      (∀ i (hi : i < observers.length), (updateObservers (.ok certs) observers s).calls[i]? =
        some (certs, (observers[i] (updateObservers (.ok certs) (observers.take i) s).state certs).1)) ∧
      ((w.fanOut (Choice.ofError (updateObservers (.ok certs) observers s).retErr)).loop.pc = .retry ↔
        ∃ call ∈ (updateObservers (.ok certs) observers s).calls, call.2 ≠ none) ∧
      ((w.fanOut (Choice.ofError (updateObservers (.ok certs) observers s).retErr)).loop.pc = .select ↔
        ∀ call ∈ (updateObservers (.ok certs) observers s).calls, call.2 = none)) ∧
    (∀ {τ : Type} (obs : ObserverLib τ) (d d' : Wired τ) answer certs, d.world.fetched = some certs →
      d.next dc lib obs (.observe answer) = some d' →
      (d'.world.loop.pc = .retry ↔ ∃ call ∈ (d.observe dc obs answer certs).calls, call.2 ≠ none)) ∧
    ∀ (w w' : World) (c : Choice), w.loop.pc = .retry → Moves dc lib w (.publish c) w' →
      w' = { w with loop := { w.loop with queued := w.loop.queued + 1, pc := .select } } := by
  refine ⟨fun _ c _ fanning read => ⟨rfl, (World.fanOut_retry_iff c fanning).mpr (.inl ⟨_, read⟩)⟩,
    fun _ _ fetched => ⟨calls_length observers s, fun _ hi => calls_getElem? observers s hi,
      World.fanOut_updateObservers fetched observers s⟩,
    fun _ _ _ _ _ fetched moved => ?_, fun _ _ _ retrying moves => moves.retry_send retrying⟩
  rw [next_observe fetched moved]
  exact (World.fanOut_updateObservers fetched _ _).1

/-- Key pairs that always parse, a tar writer that never fails, an archive that counts its files. -/
def exampleObs : ObserverLib Unit := ⟨fun _ _ => .ok (), fun _ => none, fun entries => [UInt8.ofNat entries.length]⟩

def ownStore : Store := ⟨[(pathFromHost (lit "h"), .cert (exampleRecord "x") 0)], List.nodup_singleton _⟩

/-- The first fan-out of a daemon `newConf` builds leaves it idle with its bucket and admin listener
holding the store. -/
theorem first_fan_out_serves_store :
    ∃ d : Wired Unit, Reachable exampleConf exampleLib exampleObs d ∧ d.world.loop.pc = .select ∧
      d.world.loop.queued = 0 ∧ ¬ d.world.loop.Due ∧ ¬ d.world.Owes ∧ d.world.unsignalled = false ∧
      ∃ certs entries, certsContent certs = d.world.store.content ∧
        createTarball exampleConf exampleObs.writeHeader certs = .ok entries ∧
        (∀ b ∈ d.buckets, b.lastSuccessfulWritten = exampleObs.archive entries) ∧
        ∀ cert, certs.find? (fun cert => hostFromPath cert.path = exampleConf.ourHN) = some cert →
          ∃ tlsCert, keyPairOf exampleObs.x509KeyPair cert = .ok tlsCert ∧ d.admin.getCertificate = .ok tlsCert := by
  have built : newConf exampleLib (fun _ => .ok ()) (.ok (lit "h")) none 30 3600 (lit "acme")
      [(lit "acme", ⟨lit "acme", lit "rsa key"⟩)] ownStore 1 = .ok (exampleConf, (init exampleConf ownStore 1 : Wired Unit)) := by
    rfl
  obtain ⟨d, reached, waiting, quiet, parked, scanning, noAdmins, signalled⟩ :=
    (newConf_reachable built : Reachable exampleConf exampleLib exampleObs _).reach_of_run
      ([.world (.clock initialDelay), .world .fire, .world .expire] ++ List.replicate 2 (.world (.publish .ok)) ++
        [.observe fun _ => ⟨none, none⟩])
      (fun d => d.world.loop.pc = .select ∧ d.world.loop.queued = 0 ∧
        d.world.loop.timer = ⟨some (d.world.loop.now + park), none⟩ ∧ d.world.scan = .fetching false .listing ∧
        d.world.admins = [] ∧ d.world.unsignalled = false)
      (by decide)
  have notDue : ¬ d.world.loop.Due := by simp [Loop.Due, parked, park, debounce, second]
  have owesNone : ¬ d.world.Owes := by simp [World.Owes, scanning, noAdmins]
  exact ⟨d, reached, waiting, quiet, notDue, owesNone, signalled,
    idle_observers_hold_store reached waiting quiet notDue owesNone signalled⟩

end Wired

end LeResponder
