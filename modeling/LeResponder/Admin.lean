import LeResponder.Issue

/-! `adminServer.update`: one goroutine per request, each CredHub request and source call a step;
a panicking handler is recovered by `net/http`. -/
namespace LeResponder

/-- The form values `update` reads. -/
structure UpdateRequest where
  action : GoString
  host : GoString
  path : GoString
  source : GoString
  deriving DecidableEq, Repr

/-- A request of `update` between its steps; `finished` holds its flash message. -/
inductive AdminPc where
  | start (req : UpdateRequest)
  | createLoad (hostname source : GoString)
  | createSave (hostname source : GoString)
  | delete (hostname : GoString)
  | autoLoad (hostname : GoString)
  | manualLoad (hostname : GoString)
  | manualStart (hostname : GoString) (curCert : CredhubCert)
  | manualSave (hostname : GoString) (curCert : CredhubCert)
  | completeLoad (hostname : GoString)
  | sourceLoad (hostname source : GoString)
  | sourceSave (hostname : GoString) (existing : CredhubCert)
  | issuing (success : GoString) (pc : CertPc)
  | finished (flash : Option GoString)
  | panicked
  deriving DecidableEq, Repr

namespace AdminPc

/-- `as.flashMessage(w, r, msg)`, after which the action ends. -/
def flash (msg : String) : AdminPc := .finished (some (lit msg))

/-- The `switch` of `update` up to its first request. -/
def begin (dc : DaemonConf) (req : UpdateRequest) : AdminPc :=
  let hostname := hostFromPath req.path
  let found (pc : GoString → AdminPc) : AdminPc :=
    if hostname = [] then flash "cannot find cert" else pc hostname
  if req.action = lit "create" then
    if req.host = [] then flash "empty hostname" else .createLoad req.host req.source
  else if req.action = lit "delete" then
    found fun hostname =>
      if dc.canDelete hostname then .delete hostname
      else flash "not allowed to delete cert for this server"
  else if req.action = lit "auto" then found .autoLoad
  else if req.action = lit "manual" then found .manualLoad
  else if req.action = lit "complete" then found .completeLoad
  else if req.action = lit "source" then
    if req.host = [] then flash "empty hostname" else .sourceLoad req.host req.source
  else flash "unknown action"

def saving (c : Choice) (path : GoString) (chc : CredhubCert) (next : AdminPc) : AdminPc × Effect :=
  match c with
  | .unreachable => (.finished (some Err.comms.error), .none)
  | _ => (next, .saved path chc)

/-- One step of a request of `update`. In 'auto' a failed `LoadPath` is flashed and then
`chd.Source` is read through the nil record. -/
def next (dc : DaemonConf) (lib : CertLib) (s : Store) (c : Choice) : AdminPc → Option (AdminPc × Effect)
  | .start req => some (begin dc req, .none)
  | .createLoad hostname source =>
    match reach c (loadPath s (pathFromHost hostname)) with
    | .ok _ => some (flash "already managed", .none)
    | .error _ => some (if source = [] then flash "empty source" else .createSave hostname source, .none)
  | .createSave hostname source =>
    some (saving c (pathFromHost hostname) (CredhubCert.empty source) (.finished none))
  | .delete hostname =>
    match reach c (deletePath s (pathFromHost hostname)) with
    | .ok _ => some (flash "cert successfully deleted", .deleted (pathFromHost hostname))
    | .error e => some (.finished (some e.error), .none)
  | .autoLoad hostname =>
    match reach c (loadPath s (pathFromHost hostname)) with
    | .ok chd => some (.issuing (lit "cert successfully renewed") (.issue hostname chd.source .auto), .none)
    | .error _ => some (.panicked, .none)
  | .manualLoad hostname =>
    match reach c (loadPath s (pathFromHost hostname)) with
    | .error e => some (.finished (some e.error), .none)
    | .ok curCert =>
      if (lookupIn dc.certFactories curCert.source).isSome then some (.manualStart hostname curCert, .none)
      else some (.finished (some (Err.noCertSource curCert.source).error), .none)
  | .manualStart hostname curCert =>
    match c with
    | .started chal => some (.manualSave hostname { curCert with challenge := some chal }, .none)
    | .failed e => some (.finished (some e.error), .none)
    | .panicked => some (.panicked, .none)
    | _ => none
  | .manualSave hostname curCert =>
    some (saving c (pathFromHost hostname) curCert (flash "cert challenge started"))
  | .completeLoad hostname =>
    match reach c (loadPath s (pathFromHost hostname)) with
    | .error e => some (.finished (some e.error), .none)
    | .ok chd =>
      match chd.challenge with
      | none => some (.finished (some Err.challengeNotSet.error), .none)
      | some chal => some (.issuing (lit "cert issued") (.issue hostname chd.source (.complete chal)), .none)
  | .sourceLoad hostname source =>
    match reach c (loadPath s (pathFromHost hostname)) with
    | .error e => some (.finished (some e.error), .none)
    | .ok existing =>
      some (if source = [] then flash "empty source" else .sourceSave hostname { existing with source := source }, .none)
  | .sourceSave hostname existing =>
    some (saving c (pathFromHost hostname) existing (.finished none))
  | .issuing success pc =>
    (pc.next dc lib c).map fun (next, eff) =>
      (match next with
        | .running pc => .issuing success pc
        | .returned e => .finished (some e.error)
        | .done => .finished (some success)
        | .panicked => .panicked, eff)
  | .finished _ | .panicked => none

def inGetCertAndSave : AdminPc → Bool
  | .issuing _ _ => true
  | _ => false

/-- A request about to call `DeletePath` names a hostname that decoded and may be deleted. -/
def Guarded (dc : DaemonConf) (pc : AdminPc) : Prop :=
  ∀ hostname, pc = .delete hostname → hostname ≠ [] ∧ dc.canDelete hostname = true

theorem begin_guarded (dc : DaemonConf) (req : UpdateRequest) : (begin dc req).Guarded dc := by
  intro hostname began
  simp only [begin, flash, ite_eq_iff, reduceCtorEq, and_false, false_or, or_false, delete.injEq] at began
  obtain ⟨-, -, named, deletable, rfl⟩ := began
  exact ⟨named, deletable⟩

section Steps

variable {dc : DaemonConf} {lib : CertLib} {s : Store} {c : Choice} {pc pc' : AdminPc} {eff : Effect}

theorem next_guarded (stepped : pc.next dc lib s c = some (pc', eff)) : pc'.Guarded dc := by
  rintro hostname rfl
  cases pc with
  | start req => exact begin_guarded dc req hostname (Prod.mk.inj (Option.some.inj stepped)).1
  | issuing success pc =>
    obtain ⟨⟨next, _⟩, -, same⟩ := Option.map_eq_some'.mp stepped
    cases next <;> cases same
  | _ =>
    simp only [next, saving, flash] at stepped
    repeat' split at stepped
    all_goals cases stepped

/-- Only a request at `delete hostname` deletes, and it deletes `pathFromHost(hostname)`. -/
theorem next_deleted {path : GoString} (stepped : pc.next dc lib s c = some (pc', .deleted path)) :
    ∃ hostname, pc = .delete hostname ∧ path = pathFromHost hostname := by
  cases pc with
  | issuing success pc =>
    obtain ⟨⟨_, _⟩, certStep, same⟩ := Option.map_eq_some'.mp stepped
    cases same
    exact absurd certStep CertPc.next_not_deleted
  | delete hostname =>
    simp only [next] at stepped
    split at stepped <;> cases stepped
    exact ⟨hostname, rfl, rfl⟩
  | _ =>
    simp only [next, saving] at stepped
    repeat' split at stepped
    all_goals cases stepped

theorem next_writes_signal (stepped : pc.next dc lib s c = some (pc', eff)) (writes : eff.writes = true)
    (inside : pc.inGetCertAndSave = true) : ∃ success, pc' = .issuing success .signal := by
  cases pc with
  | issuing success pc =>
    obtain ⟨⟨next, _⟩, certStep, same⟩ := Option.map_eq_some'.mp stepped
    cases same
    cases eff with
    | saved path chc =>
      obtain ⟨h, rfl, rfl, rfl⟩ := CertPc.next_saved certStep
      exact ⟨success, rfl⟩
    | deleted path => exact absurd certStep CertPc.next_not_deleted
    | _ => cases writes
  | _ => cases inside

theorem next_issuing_signal (success : GoString) :
    (AdminPc.issuing success .signal).next dc lib s c = some (.finished (some success), .send) := rfl

theorem next_manualLoad {hostname : GoString} (stepped : (manualLoad hostname).next dc lib s c = some (pc', eff)) :
    eff = .none ∧ ((∃ msg, pc' = .finished msg) ∨ ∃ curCert, pc' = .manualStart hostname curCert) := by
  simp only [next] at stepped
  repeat' split at stepped
  all_goals cases stepped
  all_goals first | exact ⟨rfl, .inl ⟨_, rfl⟩⟩ | exact ⟨rfl, .inr ⟨_, rfl⟩⟩

theorem next_manualStart {hostname : GoString} {curCert : CredhubCert}
    (stepped : (manualStart hostname curCert).next dc lib s c = some (pc', eff)) :
    eff = .none ∧ (pc' = .panicked ∨ (∃ msg, pc' = .finished msg) ∨
      ∃ chal, pc' = .manualSave hostname { curCert with challenge := some chal }) := by
  simp only [next] at stepped
  split at stepped <;> cases stepped
  · exact ⟨rfl, .inr (.inr ⟨_, rfl⟩)⟩
  · exact ⟨rfl, .inr (.inl ⟨_, rfl⟩)⟩
  · exact ⟨rfl, .inl rfl⟩

theorem next_manualSave {hostname : GoString} {curCert : CredhubCert}
    (stepped : (manualSave hostname curCert).next dc lib s c = some (pc', eff)) :
    (eff = .none ∧ ∃ msg, pc' = .finished msg) ∨
      (eff = .saved (pathFromHost hostname) curCert ∧ pc' = flash "cert challenge started") := by
  simp only [next, saving] at stepped
  split at stepped <;> cases stepped
  · exact .inl ⟨rfl, _, rfl⟩
  · exact .inr ⟨rfl, rfl⟩

/-- The first step of `CompleteChallenge` writes nothing, and ends with an error or hands the
record's source and challenge to `getCertAndSave`. -/
theorem next_completeLoad {hostname : GoString} (stepped : (completeLoad hostname).next dc lib s c = some (pc', eff)) :
    eff = .none ∧ ((∃ e : Err, pc' = .finished (some e.error)) ∨
      ∃ chd chal, reach c (loadPath s (pathFromHost hostname)) = .ok chd ∧ chd.challenge = some chal ∧
        pc' = .issuing (lit "cert issued") (.issue hostname chd.source (.complete chal))) := by
  simp only [next] at stepped
  repeat' split at stepped
  all_goals cases stepped
  · exact ⟨rfl, .inl ⟨_, rfl⟩⟩
  · exact ⟨rfl, .inl ⟨_, rfl⟩⟩
  · exact ⟨rfl, .inr ⟨_, _, ‹_›, ‹_›, rfl⟩⟩

end Steps

/-- The runs of a request from `pc` to `pc'`, with the effect of each step in order. -/
inductive Runs (dc : DaemonConf) (lib : CertLib) : AdminPc → List Effect → AdminPc → Prop where
  | refl (pc : AdminPc) : Runs dc lib pc [] pc
  | step {pc pc' pc'' : AdminPc} {eff : Effect} {effs : List Effect} (s : Store) (c : Choice) :
      pc.next dc lib s c = some (pc', eff) → Runs dc lib pc' effs pc'' → Runs dc lib pc (eff :: effs) pc''

section Runs

variable {dc : DaemonConf} {lib : CertLib} {hostname : GoString} {effs : List Effect} {pc : AdminPc}

theorem Runs.finished {msg : Option GoString} (runs : Runs dc lib (.finished msg) effs pc) :
    effs = [] ∧ pc = .finished msg := by
  cases runs with
  | refl => exact ⟨rfl, rfl⟩
  | step s c stepped _ => cases stepped

theorem Runs.panicked (runs : Runs dc lib .panicked effs pc) : effs = [] ∧ pc = .panicked := by
  cases runs with
  | refl => exact ⟨rfl, rfl⟩
  | step s c stepped _ => cases stepped

theorem Runs.manualSave {curCert : CredhubCert} (runs : Runs dc lib (.manualSave hostname curCert) effs pc) :
    (∀ eff ∈ effs, eff = .none) ∨
      pc = flash "cert challenge started" ∧ effs = [.saved (pathFromHost hostname) curCert] := by
  cases runs with
  | refl => exact .inl nofun
  | step s c stepped rest =>
    rcases next_manualSave stepped with ⟨rfl, _, rfl⟩ | ⟨rfl, rfl⟩
    · exact .inl (by simp [rest.finished.1])
    · exact .inr ⟨rest.finished.2, by rw [rest.finished.1]⟩

theorem Runs.manualStart {curCert : CredhubCert} (runs : Runs dc lib (.manualStart hostname curCert) effs pc) :
    (∀ eff ∈ effs, eff = .none) ∨ pc = flash "cert challenge started" ∧
      ∃ chc, effs = [.none, .saved (pathFromHost hostname) chc] ∧ chc.challenge.isSome := by
  cases runs with
  | refl => exact .inl nofun
  | step s c stepped rest =>
    obtain ⟨rfl, rfl | ⟨_, rfl⟩ | ⟨chal, rfl⟩⟩ := next_manualStart stepped
    · exact .inl (by simp [rest.panicked.1])
    · exact .inl (by simp [rest.finished.1])
    · rcases rest.manualSave with nothing | ⟨started, rfl⟩
      · exact .inl (by simpa using nothing)
      · exact .inr ⟨started, _, rfl, rfl⟩

/-- `StartManualChallenge` writes nothing, or writes the loaded record with its started challenge
once and then ends in success. -/
theorem Runs.manualLoad (runs : Runs dc lib (.manualLoad hostname) effs pc) :
    (∀ eff ∈ effs, eff = .none) ∨ pc = flash "cert challenge started" ∧
      ∃ chc, effs = [.none, .none, .saved (pathFromHost hostname) chc] ∧ chc.challenge.isSome := by
  cases runs with
  | refl => exact .inl nofun
  | step s c stepped rest =>
    obtain ⟨rfl, ⟨_, rfl⟩ | ⟨curCert, rfl⟩⟩ := next_manualLoad stepped
    · exact .inl (by simp [rest.finished.1])
    · rcases rest.manualStart with nothing | ⟨started, chc, rfl, set⟩
      · exact .inl (by simpa using nothing)
      · exact .inr ⟨started, chc, rfl, set⟩

end Runs

end AdminPc

/-- The issuance paths are atomic: `StartManualChallenge` and `CompleteChallenge` write nothing until
their one write, and `getCertAndSave` fails writing and sending nothing, or writes a record with
no challenge, its source and the admin type exactly for a fixed host, then sends once. -/
theorem issuance_atomic (dc : DaemonConf) (lib : CertLib) (hostname : GoString) :
    (∀ effs pc, AdminPc.Runs dc lib (.manualLoad hostname) effs pc →
      (∀ eff ∈ effs, eff = .none) ∨ pc = AdminPc.flash "cert challenge started" ∧
        ∃ chc, effs = [.none, .none, .saved (pathFromHost hostname) chc] ∧ chc.challenge.isSome) ∧
    (∀ s c pc eff, (AdminPc.completeLoad hostname).next dc lib s c = some (pc, eff) → eff = .none ∧
      ((∃ e : Err, pc = .finished (some e.error)) ∨
        ∃ chd chal, reach c (loadPath s (pathFromHost hostname)) = .ok chd ∧ chd.challenge = some chal ∧
          pc = .issuing (lit "cert issued") (.issue hostname chd.source (.complete chal)))) ∧
    ∀ cs issuer effs next, CertPc.Runs dc lib (.issue hostname cs issuer) effs next →
      (next ≠ .done ∧ ∀ eff ∈ effs, eff = .none) ∨
        (next = .done ∧ ∃ chc, effs = [.none, .saved (pathFromHost hostname) chc, .send] ∧
          chc.challenge = none ∧ chc.source = cs ∧
          (chc.type = lit "admin" ↔ hostname = lit "proxy-bootstrap" ∨ hostname = dc.ourHN)) := by
  refine ⟨fun _ _ runs => runs.manualLoad, fun _ _ _ _ stepped => AdminPc.next_completeLoad stepped,
    fun cs _ _ _ runs => ?_⟩
  rcases runs.issue with failed | ⟨done, pkey, cert, roots, rfl⟩
  · exact .inl failed
  · exact .inr ⟨done, _, rfl, issuedRecord_fields dc lib hostname cs pkey cert roots⟩

end LeResponder
