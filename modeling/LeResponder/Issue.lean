import LeResponder.Cycle
import LeResponder.Acme

/-! The code paths several goroutines run, `FetchCerts` and `getCertAndSave`, cut where another
goroutine can come between two steps; each step makes at most one write or send. -/
namespace LeResponder

/-- What the world outside the daemon decides at one step: CredHub carries out the request
(`ok`) or is not reached (`unreachable`), or a certificate source's CA answers. -/
inductive Choice where
  | ok
  | unreachable
  | issued (pkey : RsaKey) (der : List (List UInt8))
  | started (chal : AcmeChallenge)
  | failed (e : Err)
  | panicked
  deriving DecidableEq, Repr

/-- The answer of a CredHub request made at a step with choice `c`. -/
def reach {α : Type} (c : Choice) (answer : Except Err α) : Except Err α :=
  match c with
  | .unreachable => .error .comms
  | _ => answer

theorem reach_eq_ok {α : Type} {c : Choice} {answer : Except Err α} {a : α} (reached : reach c answer = .ok a) :
    answer = .ok a := by
  cases c <;> first | exact reached | cases reached

/-- A step's one write that CredHub carried out, or its send on `updateRequests`. -/
inductive Effect where
  | none
  | saved (path : GoString) (chc : CredhubCert)
  | deleted (path : GoString)
  | send
  deriving DecidableEq, Repr

def Effect.writes : Effect → Bool
  | .saved _ _ | .deleted _ => true
  | _ => false

/-- `FetchCerts` between its requests: before the listing, then loading the listed names. -/
inductive FetchPc where
  | listing
  | loading (todo : List GoString) (got : List CredhubCert)
  deriving DecidableEq, Repr

def FetchPc.next (s : Store) (c : Choice) : FetchPc → Except Err (FetchPc ⊕ List CredhubCert)
  | .listing => (reach c (.ok (getCredList s))).map fun names => .inl (.loading names [])
  | .loading [] got => .ok (.inr got)
  | .loading (name :: todo) got =>
    (reach c (loadPath s name)).map fun chc => .inl (.loading todo (got ++ [chc]))

/-- The requests of `FetchCerts` so far agree with the store `s`. -/
def FetchPc.Consistent (s : Store) : FetchPc → Prop
  | .listing => True
  | .loading todo got => ∃ done, s.names = done ++ todo ∧ loadEach s done = .ok got

section Fetch

variable {s : Store} {c : Choice} {pc pc' : FetchPc}

theorem FetchPc.next_consistent (consistent : pc.Consistent s) (stepped : pc.next s c = .ok (.inl pc')) :
    pc'.Consistent s := by
  cases pc with
  | listing =>
    cases listed : reach c (.ok (getCredList s)) with
    | error e => simp [FetchPc.next, listed, Except.map] at stepped
    | ok names =>
      simp only [FetchPc.next, listed, Except.map, Except.ok.injEq, Sum.inl.injEq] at stepped
      subst stepped
      exact ⟨[], Except.ok.inj (reach_eq_ok listed), rfl⟩
  | loading todo got =>
    obtain ⟨done, names, loaded⟩ := consistent
    cases todo with
    | nil => cases stepped
    | cons name todo =>
      cases read : reach c (loadPath s name) with
      | error e => simp [FetchPc.next, read, Except.map] at stepped
      | ok chc =>
        simp only [FetchPc.next, read, Except.map, Except.ok.injEq, Sum.inl.injEq] at stepped
        subst stepped
        exact ⟨done ++ [name], by simp [names], loadEach_snoc loaded (reach_eq_ok read)⟩

theorem FetchPc.next_content {certs : List CredhubCert} (consistent : pc.Consistent s)
    (stepped : pc.next s c = .ok (.inr certs)) : certsContent certs = s.content := by
  cases pc with
  | listing =>
    cases listed : reach c (.ok (getCredList s)) <;> simp [FetchPc.next, listed, Except.map] at stepped
  | loading todo got =>
    obtain ⟨done, names, loaded⟩ := consistent
    cases todo with
    | nil =>
      cases stepped
      rw [List.append_nil] at names
      exact fetchCerts_content (by rwa [fetchCerts, getCredList, names])
    | cons name todo =>
      cases read : reach c (loadPath s name) <;> simp [FetchPc.next, read, Except.map] at stepped

end Fetch

/-- The issuer `getCertAndSave` is given: `AutoFetchCert` (`RenewCertNow`) or `CompleteChallenge`. -/
inductive Issuer where
  | auto
  | complete (chal : AcmeChallenge)
  deriving DecidableEq, Repr

/-- `getCertAndSave(hostname, cs, issuer)` before its CA work, before `SavePath`, and before its send. -/
inductive CertPc where
  | issue (hostname cs : GoString) (issuer : Issuer)
  | save (hostname : GoString) (chc : CredhubCert)
  | signal
  deriving DecidableEq, Repr

inductive CertNext where
  | running (pc : CertPc)
  | returned (e : Err)
  | done
  | panicked
  deriving DecidableEq, Repr

/-- The record `getCertAndSave` saves for the key `pkey` and the chain `cert :: roots`. -/
def issuedRecord (dc : DaemonConf) (lib : CertLib) (hostname cs : GoString) (pkey : RsaKey)
    (cert : List UInt8) (roots : List (List UInt8)) : CredhubCert where
  source := cs
  type := if dc.canDelete hostname then lit "user" else lit "admin"
  ca := roots.flatMap fun r => lib.encodeToMemory ⟨lit "CERTIFICATE", [], r⟩
  certificate := lib.encodeToMemory ⟨lit "CERTIFICATE", [], cert⟩
  privateKey := lib.encodeToMemory ⟨lit "RSA PRIVATE KEY", [], pkey.pkcs1⟩
  challenge := none
  path := []
  dateCreated := 0

/-- One step of `getCertAndSave`. An issuer that panics, or returns an empty chain so that
`der[1:]` is out of range, panics. -/
def CertPc.next (dc : DaemonConf) (lib : CertLib) (c : Choice) : CertPc → Option (CertNext × Effect)
  | .issue hostname cs _ =>
    let sourced (next : CertNext) : CertNext :=
      if (lookupIn dc.certFactories cs).isSome then next else .returned (.noCertSource cs)
    match c with
    | .failed e => some (.returned e, .none)
    | .issued pkey (cert :: roots) =>
      some (sourced (.running (.save hostname (issuedRecord dc lib hostname cs pkey cert roots))), .none)
    | .issued _ [] | .panicked => some (sourced .panicked, .none)
    | _ => none
  | .save hostname chc =>
    match c with
    | .unreachable => some (.returned .comms, .none)
    | _ => some (.running .signal, .saved (pathFromHost hostname) chc)
  | .signal => some (.done, .send)

/-- `getCertAndSave` goes on to its send, or from its CA work to the `SavePath` of an issued record. -/
theorem CertPc.next_running {dc : DaemonConf} {lib : CertLib} {c : Choice} {pc pc' : CertPc} {eff : Effect}
    (stepped : pc.next dc lib c = some (.running pc', eff)) :
    pc' = .signal ∨ ∃ hostname cs issuer pkey cert roots,
      pc' = .save hostname (issuedRecord dc lib hostname cs pkey cert roots) ∧ pc = .issue hostname cs issuer := by
  cases pc with
  | issue h cs issuer =>
    simp only [CertPc.next] at stepped
    repeat' split at stepped
    all_goals cases stepped
    exact .inr ⟨h, cs, issuer, _, _, _, rfl, rfl⟩
  | save h chc =>
    simp only [CertPc.next] at stepped
    split at stepped <;> cases stepped
    exact .inl rfl
  | signal => cases stepped

theorem CertPc.next_saved {dc : DaemonConf} {lib : CertLib} {c : Choice} {pc : CertPc} {next : CertNext}
    {path : GoString} {chc : CredhubCert} (stepped : pc.next dc lib c = some (next, .saved path chc)) :
    ∃ hostname, pc = .save hostname chc ∧ path = pathFromHost hostname ∧ next = .running .signal := by
  cases pc with
  | issue h cs issuer =>
    simp only [CertPc.next] at stepped
    repeat' split at stepped
    all_goals cases stepped
  | save h chc =>
    simp only [CertPc.next] at stepped
    split at stepped <;> cases stepped
    exact ⟨h, rfl, rfl, rfl⟩
  | signal => cases stepped

theorem CertPc.next_issue {dc : DaemonConf} {lib : CertLib} {c : Choice} {hostname cs : GoString}
    {issuer : Issuer} {next : CertNext} {eff : Effect}
    (stepped : (CertPc.issue hostname cs issuer).next dc lib c = some (next, eff)) :
    eff = .none ∧ (next = .panicked ∨ (∃ e, next = .returned e) ∨
      ∃ pkey cert roots, next = .running (.save hostname (issuedRecord dc lib hostname cs pkey cert roots))) := by
  simp only [CertPc.next] at stepped
  repeat' split at stepped
  all_goals cases stepped
  all_goals first
    | exact ⟨rfl, .inr (.inl ⟨_, rfl⟩)⟩
    | exact ⟨rfl, .inl rfl⟩
    | exact ⟨rfl, .inr (.inr ⟨_, _, _, rfl⟩)⟩

def Choice.ofAutoFetch (pkey : RsaKey) : Outcome (List (List UInt8)) → Choice
  | .ok der => .issued pkey der
  | .error e => .failed e
  | .panic => .panicked

/-- `RenewCertNow` on an ACME source panics exactly when `AutoFetchCert` does: the chain it returns
is never empty. -/
theorem renewCertNow_acme_panics_iff {σ : Type} (acme : Acme σ) (acs : AcmeCertSource) (s : σ) (pkey : RsaKey)
    {dc : DaemonConf} {lib : CertLib} {hostname cs : GoString} (configured : (lookupIn dc.certFactories cs).isSome) :
    (CertPc.issue hostname cs .auto).next dc lib
        (Choice.ofAutoFetch pkey (autoFetchCert acme acs s pkey hostname).result) = some (.panicked, .none) ↔
      (autoFetchCert acme acs s pkey hostname).result = .panic := by
  cases fetched : (autoFetchCert acme acs s pkey hostname).result with
  | ok der =>
    obtain ⟨cert, roots, rfl⟩ := List.exists_cons_of_ne_nil (autoFetchCert_ok_ne_nil acme fetched)
    simp [Choice.ofAutoFetch, CertPc.next, configured]
  | error e => simp [Choice.ofAutoFetch, CertPc.next]
  | panic => simp [Choice.ofAutoFetch, CertPc.next, configured]

theorem CertPc.next_save {dc : DaemonConf} {lib : CertLib} {c : Choice} {hostname : GoString}
    {chc : CredhubCert} {next : CertNext} {eff : Effect}
    (stepped : (CertPc.save hostname chc).next dc lib c = some (next, eff)) :
    (next = .returned .comms ∧ eff = .none) ∨
      (next = .running .signal ∧ eff = .saved (pathFromHost hostname) chc) := by
  simp only [CertPc.next] at stepped
  split at stepped <;> cases stepped
  · exact .inl ⟨rfl, rfl⟩
  · exact .inr ⟨rfl, rfl⟩

/-- The runs of `getCertAndSave` from `pc` to its end, with the effect of each step in order. -/
inductive CertPc.Runs (dc : DaemonConf) (lib : CertLib) : CertPc → List Effect → CertNext → Prop where
  | stop {pc : CertPc} {next : CertNext} {eff : Effect} (c : Choice) :
      pc.next dc lib c = some (next, eff) → (∀ pc', next ≠ .running pc') →
      CertPc.Runs dc lib pc [eff] next
  | step {pc pc' : CertPc} {eff : Effect} {effs : List Effect} {next : CertNext} (c : Choice) :
      pc.next dc lib c = some (.running pc', eff) → CertPc.Runs dc lib pc' effs next →
      CertPc.Runs dc lib pc (eff :: effs) next

section Runs

variable {dc : DaemonConf} {lib : CertLib} {hostname : GoString} {effs : List Effect} {next : CertNext}

theorem CertPc.Runs.signal (runs : CertPc.Runs dc lib .signal effs next) : effs = [.send] ∧ next = .done := by
  cases runs with
  | stop c stepped _ => cases stepped; exact ⟨rfl, rfl⟩
  | step c stepped _ => cases stepped

theorem CertPc.Runs.save {chc : CredhubCert} (runs : CertPc.Runs dc lib (.save hostname chc) effs next) :
    (effs = [.none] ∧ next = .returned .comms) ∨
      (effs = [.saved (pathFromHost hostname) chc, .send] ∧ next = .done) := by
  cases runs with
  | stop c stepped ended =>
    rcases CertPc.next_save stepped with ⟨rfl, rfl⟩ | ⟨rfl, -⟩
    · exact .inl ⟨rfl, rfl⟩
    · exact absurd rfl (ended _)
  | step c stepped rest =>
    rcases CertPc.next_save stepped with ⟨returned, -⟩ | ⟨running, rfl⟩
    · cases returned
    · cases running
      obtain ⟨rfl, rfl⟩ := rest.signal
      exact .inr ⟨rfl, rfl⟩

/-- `getCertAndSave` is atomic: a run that fails writes and sends nothing; one that completes
writes the issued record under the hostname's path once, then sends once. -/
theorem CertPc.Runs.issue {cs : GoString} {issuer : Issuer}
    (runs : CertPc.Runs dc lib (.issue hostname cs issuer) effs next) :
    (next ≠ .done ∧ ∀ eff ∈ effs, eff = .none) ∨
      (next = .done ∧ ∃ pkey cert roots,
        effs = [.none, .saved (pathFromHost hostname) (issuedRecord dc lib hostname cs pkey cert roots), .send]) := by
  cases runs with
  | stop c stepped ended =>
    obtain ⟨rfl, failed | ⟨e, rfl⟩ | ⟨pkey, cert, roots, rfl⟩⟩ := CertPc.next_issue stepped
    · exact .inl ⟨by rw [failed]; nofun, by simp⟩
    · exact .inl ⟨nofun, by simp⟩
    · exact absurd rfl (ended _)
  | step c stepped rest =>
    obtain ⟨rfl, failed | ⟨e, failed⟩ | ⟨pkey, cert, roots, running⟩⟩ := CertPc.next_issue stepped
    · cases failed
    · cases failed
    · cases running
      rcases rest.save with ⟨rfl, rfl⟩ | ⟨rfl, rfl⟩
      · exact .inl ⟨nofun, by simp⟩
      · exact .inr ⟨rfl, pkey, cert, roots, rfl⟩

end Runs

/-- The issued record has no challenge and its source, and is an admin record exactly for a fixed host. -/
theorem issuedRecord_fields (dc : DaemonConf) (lib : CertLib) (hostname cs : GoString) (pkey : RsaKey)
    (cert : List UInt8) (roots : List (List UInt8)) :
    (issuedRecord dc lib hostname cs pkey cert roots).challenge = none ∧
      (issuedRecord dc lib hostname cs pkey cert roots).source = cs ∧
      ((issuedRecord dc lib hostname cs pkey cert roots).type = lit "admin" ↔
        hostname = lit "proxy-bootstrap" ∨ hostname = dc.ourHN) := by
  refine ⟨rfl, rfl, ?_⟩
  rw [← DaemonConf.isFixedHost_iff]
  simp only [issuedRecord, DaemonConf.canDelete]
  have differ : lit "user" ≠ lit "admin" := by decide
  by_cases fixed : dc.isFixedHost hostname = true <;> simp [fixed, differ]

theorem CertPc.next_not_deleted {dc : DaemonConf} {lib : CertLib} {c : Choice} {pc : CertPc}
    {next : CertNext} {path : GoString} : pc.next dc lib c ≠ some (next, .deleted path) := by
  intro stepped
  cases pc <;> simp only [CertPc.next] at stepped
  all_goals repeat' split at stepped
  all_goals simp_all

end LeResponder
