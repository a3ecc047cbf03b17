import LeResponder.Scan
import LeResponder.Admin

/-! The daemon as one state machine: CredHub, the publish loop with its fan-out, the scan
goroutine, and one goroutine per admin request; a move is one step of one of them. -/
namespace LeResponder

/-- The daemon and CredHub. `reading` is the fan-out's `FetchCerts`; `published` and `unsignalled`
are ghost state: what the last fan-out delivered, and whether an unsignalled admin write happened. -/
structure World where
  store : Store
  loop : Loop
  reading : FetchPc
  scan : ScanPc
  admins : List AdminPc
  published : Option (List Content)
  unsignalled : Bool

def World.init (s : Store) : World := ⟨s, Loop.init, .listing, .fetching false .listing, [], none, false⟩

/-- Who moves, with what the world outside the daemon answers. -/
inductive Move where
  | clock (t : Nat)
  | fire
  | receive
  | expire
  | publish (c : Choice)
  | scan (c : Choice)
  | request (req : UpdateRequest)
  | admin (i : Nat) (c : Choice)
  deriving DecidableEq, Repr

namespace World

variable (dc : DaemonConf) (lib : CertLib)

/-- A goroutine's effect, made at the current instant; a send waits while `updateRequests` is full. -/
def apply (w : World) : Effect → Option World
  | .none => some w
  | .saved path chc => some { w with store := savePath w.store path chc w.loop.now }
  | .deleted path => some { w with store := w.store.erase path }
  | .send =>
    if w.loop.queued < capacity then some { w with loop := { w.loop with queued := w.loop.queued + 1 } }
    else none

/-- A step of `updateObservers`: a request of its `FetchCerts`, or its end, back at the `select` or
about to retry. -/
def fanOut (w : World) (c : Choice) : World :=
  match w.reading.next w.store c with
  | .ok (.inl pc) => { w with reading := pc }
  | .ok (.inr certs) =>
    match c with
    | .failed _ => { w with loop := { w.loop with pc := .retry } }
    | _ => { w with loop := { w.loop with pc := .select }, published := some (certsContent certs) }
  | .error _ => { w with loop := { w.loop with pc := .retry } }

def step (w : World) : Move → Option World
  | .clock t => if w.loop.now ≤ t then some { w with loop := { w.loop with now := t } } else none
  | .fire =>
    match w.loop.timer.deadline with
    | some d => if d ≤ w.loop.now then some { w with loop := { w.loop with timer := w.loop.timer.fire } } else none
    | none => none
  | .receive =>
    if w.loop.pc = .select ∧ 0 < w.loop.queued then some { w with loop := w.loop.onSignal } else none
  | .expire =>
    if w.loop.pc = .select ∧ w.loop.timer.buffered.isSome then
      some { w with loop := w.loop.onTick, reading := .listing, unsignalled := false }
    else none
  | .publish c =>
    match w.loop.pc with
    | .fanOut => some (w.fanOut c)
    | .retry =>
      if w.loop.queued < capacity then some { w with loop := { w.loop with queued := w.loop.queued + 1, pc := .select } }
      else none
    | _ => none
  | .scan c =>
    (w.scan.next dc lib w.loop.now w.store c).bind fun (pc, eff) => { w with scan := pc }.apply eff
  | .request req => some { w with admins := w.admins ++ [.start req] }
  | .admin i c =>
    w.admins[i]?.bind fun pc =>
      (pc.next dc lib w.store c).bind fun (pc', eff) =>
        { w with admins := w.admins.set i pc', unsignalled := w.unsignalled || (!pc.inGetCertAndSave && eff.writes) }.apply eff

def next (w : World) (m : Move) : Option World :=
  if w.scan = .crashed then none else w.step dc lib m

def run (w : World) : List Move → Option World
  | [] => some w
  | m :: ms => (w.next dc lib m).bind fun w => w.run ms

end World

/-- The moves of a live process one kind at a time, each with its guard. -/
inductive Moves (dc : DaemonConf) (lib : CertLib) : World → Move → World → Prop where
  | clock (w : World) (t : Nat) : w.loop.now ≤ t → Moves dc lib w (.clock t) { w with loop := { w.loop with now := t } }
  | fire (w : World) (d : Nat) : w.loop.timer.deadline = some d → d ≤ w.loop.now →
      Moves dc lib w .fire { w with loop := { w.loop with timer := w.loop.timer.fire } }
  | receive (w : World) : w.loop.pc = .select → 0 < w.loop.queued →
      Moves dc lib w .receive { w with loop := w.loop.onSignal }
  | expire (w : World) : w.loop.pc = .select → w.loop.timer.buffered.isSome →
      Moves dc lib w .expire { w with loop := w.loop.onTick, reading := .listing, unsignalled := false }
  | fanOut (w : World) (c : Choice) : w.loop.pc = .fanOut → Moves dc lib w (.publish c) (w.fanOut c)
  | retry (w : World) (c : Choice) : w.loop.pc = .retry → w.loop.queued < capacity →
      Moves dc lib w (.publish c) { w with loop := { w.loop with queued := w.loop.queued + 1, pc := .select } }
  | scan (w w' : World) (c : Choice) (pc : ScanPc) (eff : Effect) :
      w.scan.next dc lib w.loop.now w.store c = some (pc, eff) → { w with scan := pc }.apply eff = some w' →
      Moves dc lib w (.scan c) w'
  | request (w : World) (req : UpdateRequest) : Moves dc lib w (.request req) { w with admins := w.admins ++ [.start req] }
  | admin (w w' : World) (i : Nat) (c : Choice) (pc pc' : AdminPc) (eff : Effect) : w.admins[i]? = some pc →
      pc.next dc lib w.store c = some (pc', eff) →
      World.apply
        { w with admins := w.admins.set i pc', unsignalled := w.unsignalled || (!pc.inGetCertAndSave && eff.writes) } eff =
        some w' →
      Moves dc lib w (.admin i c) w'

theorem World.next_eq_some {dc : DaemonConf} {lib : CertLib} {w w' : World} {m : Move} :
    w.next dc lib m = some w' ↔ w.scan ≠ .crashed ∧ Moves dc lib w m w' := by
  unfold World.next
  constructor
  · intro moved
    split at moved
    · cases moved
    refine ⟨‹_›, ?_⟩
    cases m with
    | clock t =>
      simp only [World.step] at moved
      split at moved <;> cases moved
      exact .clock w t ‹_›
    | fire =>
      simp only [World.step] at moved
      split at moved
      · split at moved <;> cases moved
        exact .fire w _ ‹_› ‹_›
      · cases moved
    | receive =>
      simp only [World.step] at moved
      split at moved <;> cases moved
      exact .receive w ‹_ ∧ _›.1 ‹_ ∧ _›.2
    | expire =>
      simp only [World.step] at moved
      split at moved <;> cases moved
      exact .expire w ‹_ ∧ _›.1 ‹_ ∧ _›.2
    | publish c =>
      simp only [World.step] at moved
      split at moved
      · cases moved
        exact .fanOut w c ‹_›
      · split at moved <;> cases moved
        exact .retry w c ‹_› ‹_›
      · cases moved
    | scan c =>
      simp only [World.step, Option.bind_eq_some] at moved
      obtain ⟨⟨pc, eff⟩, stepped, applied⟩ := moved
      exact .scan w w' c pc eff stepped applied
    | request req =>
      cases moved
      exact .request w req
    | admin i c =>
      simp only [World.step, Option.bind_eq_some] at moved
      obtain ⟨pc, found, ⟨pc', eff⟩, stepped, applied⟩ := moved
      exact .admin w w' i c pc pc' eff found stepped applied
  · rintro ⟨live, moves⟩
    rw [if_neg live]
    cases moves with
    | fire d armed due => simp [World.step, armed, due]
    | receive waiting queued => simp [World.step, waiting, queued]
    | expire waiting ticked => simp [World.step, waiting, ticked]
    | fanOut c fanning => simp [World.step, fanning]
    | retry c retrying room => simp [World.step, retrying, room]
    | scan _ c pc eff stepped applied => simp [World.step, stepped, applied]
    | admin _ i c pc pc' eff found stepped applied => simp [World.step, found, stepped, applied]
    | _ => simp [World.step, *]

inductive Reachable (dc : DaemonConf) (lib : CertLib) : World → Prop where
  | init (s : Store) : Reachable dc lib (World.init s)
  | step {w w' : World} (m : Move) : Reachable dc lib w → w.next dc lib m = some w' → Reachable dc lib w'

section Runs

variable {dc : DaemonConf} {lib : CertLib}

theorem Reachable.run {w w' : World} {ms : List Move} (reached : Reachable dc lib w)
    (ran : w.run dc lib ms = some w') : Reachable dc lib w' := by
  induction ms generalizing w with
  | nil => cases ran; exact reached
  | cons m ms ih =>
    simp only [World.run, Option.bind_eq_some] at ran
    obtain ⟨w₁, moved, rest⟩ := ran
    exact ih (reached.step m moved) rest

theorem World.run_append (w : World) (ms ms' : List Move) :
    w.run dc lib (ms ++ ms') = (w.run dc lib ms).bind fun w => w.run dc lib ms' := by
  induction ms generalizing w with
  | nil => rfl
  | cons m ms ih =>
    show ((w.next dc lib m).bind fun w => w.run dc lib (ms ++ ms')) = _
    simp only [ih, World.run, Option.bind_assoc]

theorem World.apply_loop {w w' : World} {eff : Effect} (applied : w.apply eff = some w') :
    w'.loop = w.loop ∨ eff = .send ∧ w.loop.queued < capacity ∧
      w'.loop = { w.loop with queued := w.loop.queued + 1 } := by
  cases eff with
  | send =>
    simp only [World.apply] at applied
    split at applied
    · cases applied; exact .inr ⟨rfl, ‹_›, rfl⟩
    · cases applied
  | _ => simp only [World.apply, Option.some.injEq] at applied; subst applied; exact .inl rfl

theorem World.apply_store {w w' : World} {eff : Effect} (applied : w.apply eff = some w') :
    w'.admins = w.admins ∧ w'.scan = w.scan ∧
      ((∃ path chc, eff = .saved path chc ∧ w'.store = savePath w.store path chc w.loop.now) ∨
        (∃ path, eff = .deleted path ∧ w'.store = w.store.erase path) ∨ w'.store = w.store) := by
  cases eff with
  | none => cases applied; exact ⟨rfl, rfl, .inr (.inr rfl)⟩
  | saved path chc => cases applied; exact ⟨rfl, rfl, .inl ⟨path, chc, rfl, rfl⟩⟩
  | deleted path => cases applied; exact ⟨rfl, rfl, .inr (.inl ⟨path, rfl, rfl⟩)⟩
  | send =>
    simp only [World.apply] at applied
    split at applied <;> cases applied
    exact ⟨rfl, rfl, .inr (.inr rfl)⟩

theorem World.fanOut_frame (w : World) (c : Choice) :
    (w.fanOut c).store = w.store ∧ (w.fanOut c).admins = w.admins ∧ (w.fanOut c).scan = w.scan ∧
      ((w.fanOut c).loop = w.loop ∨ ∃ ok : Bool, (w.fanOut c).loop = { w.loop with pc := if ok then .select else .retry }) := by
  unfold World.fanOut
  split
  · exact ⟨rfl, rfl, rfl, .inl rfl⟩
  · split
    · exact ⟨rfl, rfl, rfl, .inr ⟨false, rfl⟩⟩
    · exact ⟨rfl, rfl, rfl, .inr ⟨true, rfl⟩⟩
  · exact ⟨rfl, rfl, rfl, .inr ⟨false, rfl⟩⟩

/-- The fan-out ends at its retry send exactly when `FetchCerts` or an observer failed. -/
theorem World.fanOut_retry_iff {w : World} (c : Choice) (fanning : w.loop.pc = .fanOut) :
    (w.fanOut c).loop.pc = .retry ↔ (∃ e, w.reading.next w.store c = .error e) ∨
      ∃ certs e, w.reading.next w.store c = .ok (.inr certs) ∧ c = .failed e := by
  unfold World.fanOut
  split <;> rename_i read
  · simp [read, fanning]
  · split
    · simp [read]
    · simpa [read] using ‹∀ e, c = .failed e → False›
  · simp [read]

/-- At its retry send the publish loop's one move is a single send, back to its `select`. -/
theorem Moves.retry_send {w w' : World} {c : Choice} (retrying : w.loop.pc = .retry)
    (moves : Moves dc lib w (.publish c) w') :
    w' = { w with loop := { w.loop with queued := w.loop.queued + 1, pc := .select } } := by
  cases moves with
  | fanOut _ fanning => rw [retrying] at fanning; cases fanning
  | retry _ _ _ => rfl

/-- A move changes the store and the admin requests only by a step's effect or a new request. -/
theorem World.next_cases {w w' : World} {m : Move} (moved : w.next dc lib m = some w') :
    (∃ c pc eff, m = .scan c ∧ w.scan.next dc lib w.loop.now w.store c = some (pc, eff) ∧
      { w with scan := pc }.apply eff = some w') ∨
    (∃ i c pc pc' eff, m = .admin i c ∧ w.admins[i]? = some pc ∧ pc.next dc lib w.store c = some (pc', eff) ∧
      World.apply { w with
        admins := w.admins.set i pc', unsignalled := w.unsignalled || (!pc.inGetCertAndSave && eff.writes) } eff =
        some w') ∨
    (∃ req, m = .request req ∧ w' = { w with admins := w.admins ++ [.start req] }) ∨
    (w'.store = w.store ∧ w'.admins = w.admins ∧ w'.scan = w.scan) := by
  cases (World.next_eq_some.mp moved).2 with
  | scan _ c pc eff stepped applied => exact .inl ⟨c, pc, eff, rfl, stepped, applied⟩
  | admin _ i c pc pc' eff found stepped applied => exact .inr (.inl ⟨i, c, pc, pc', eff, rfl, found, stepped, applied⟩)
  | request req => exact .inr (.inr (.inl ⟨req, rfl, rfl⟩))
  | fanOut c _ => exact .inr (.inr (.inr ⟨(w.fanOut_frame c).1, (w.fanOut_frame c).2.1, (w.fanOut_frame c).2.2.1⟩))
  | _ => exact .inr (.inr (.inr ⟨rfl, rfl, rfl⟩))

theorem World.next_loop {w w' : World} {m : Move} (moved : w.next dc lib m = some w') :
    w'.loop = w.loop ∨ ∃ ev, LoopStep w.loop ev w'.loop := by
  have sends : ∀ {v : World} {eff : Effect}, v.apply eff = some w' → v.loop = w.loop →
      w'.loop = w.loop ∨ ∃ ev, LoopStep w.loop ev w'.loop := by
    intro v eff applied same
    rcases World.apply_loop applied with kept | ⟨-, room, sent⟩
    · exact .inl (kept.trans same)
    · rw [same] at room sent; exact .inr ⟨none, sent ▸ .signal _ room⟩
  cases (World.next_eq_some.mp moved).2 with
  | clock t later => exact .inr ⟨none, .advance _ t later⟩
  | fire d armed due => exact .inr ⟨none, .fire _ d armed due⟩
  | receive waiting queued => exact .inr ⟨_, .receive _ waiting queued⟩
  | expire waiting ticked => exact .inr ⟨_, .expire _ waiting ticked⟩
  | fanOut c fanning =>
    rcases (w.fanOut_frame c).2.2.2 with same | ⟨ok, finished⟩
    · exact .inl same
    · exact .inr ⟨none, finished ▸ .finish _ ok fanning⟩
  | retry c retrying room => exact .inr ⟨none, .retry _ retrying room⟩
  | scan _ c pc eff _ applied => exact sends applied rfl
  | request req => exact .inl rfl
  | admin _ i c pc pc' eff _ _ applied => exact sends applied rfl

/-- A run from a start that ends where `p` holds. -/
theorem reach_of_run (dc : DaemonConf) (lib : CertLib) (s : Store) (ms : List Move)
    (p : World → Prop) [DecidablePred p]
    (ran : ((World.init s).run dc lib ms).map (fun w => decide (p w)) = some true) :
    ∃ w, Reachable dc lib w ∧ p w := by
  cases h : (World.init s).run dc lib ms with
  | none => simp [h] at ran
  | some w =>
    simp only [h, Option.map_some', Option.some.injEq, decide_eq_true_eq] at ran
    exact ⟨w, (Reachable.init s).run h, ran⟩

end Runs

/-! A small configuration for the runs of later modules. Every record is a certificate that
parses; the record of `a` is due for renewal when its certificate reads `due`. -/

/-- Thirty days before expiry, an hourly scan, one ACME source, and the daemon's own name `h`. -/
def exampleConf : DaemonConf := ⟨30, 3600, lit "acme", lit "h", [(lit "acme", .acme)]⟩

/-- A PEM block holds the text itself, an RSA key for `rsa key` and a certificate otherwise; a
certificate reading `due` expires at instant 0. -/
def exampleLib : CertLib where
  pemDecode s := (some ⟨if s = lit "rsa key" then lit "RSA PRIVATE KEY" else lit "CERTIFICATE", [], s⟩, [])
  encodeToMemory b := b.bytes
  parseCertificate b := .ok ⟨if b = lit "due" then 0 else 1000000000000000000⟩

def exampleRecord (cert : String) : CredhubCert := ⟨lit "acme", lit "user", [], lit cert, lit "k", none, [], 0⟩

def exampleStore (cert : String) : Store :=
  ⟨[(pathFromHost (lit "proxy-bootstrap"), .cert (exampleRecord "x") 0),
    (pathFromHost (lit "h"), .cert (exampleRecord "x") 0),
    (pathFromHost (lit "a"), .cert (exampleRecord cert) 0)], by simp only [List.map_cons, List.map_nil]; decide⟩

end LeResponder
