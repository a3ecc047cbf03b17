import LeResponder.Issue
import LeResponder.Publish

/-! The scan goroutine of `RunForever`: `periodicScan` once per period, each CredHub request and
`RenewCertNow` call a step of its own. -/
namespace LeResponder

/-- Where the scan goroutine stands: asleep until `wake`, in `FetchCerts`, or evaluating `hostname`
with `todo` still to come, `retErr` the cycle's last error and `pc` its `RenewCertNow`. -/
inductive ScanPc where
  | sleeping (bootstrapped : Bool) (wake : Nat)
  | fetching (bootstrapped : Bool) (pc : FetchPc)
  | renewing (bootstrapped : Bool) (certs : List CredhubCert) (hostname : GoString)
      (todo : List GoString) (retErr : Option Err) (pc : Option CertPc)
  | crashed
  deriving DecidableEq, Repr

/-- The sleep after a cycle that returned `err`: `Period` seconds, or 15 after a communication error
before any cycle succeeded, wrapping as a `time.Duration`. -/
def sleepFor (dc : DaemonConf) (bootstrapped : Bool) (err : Option Err) : Nat :=
  let nextSleepSeconds : BitVec 64 := if err = some .comms ∧ bootstrapped = false then 15 else dc.period
  (BitVec.ofNat 64 second * nextSleepSeconds).toInt.toNat

/-- `Init` accepts exactly nonzero `Period` and `DaysBefore` with at least one valid source; the sleep
and the renewal window are positive without overflow exactly for `Period` in 1..9223372036 and
`DaysBefore` in 1..106751. -/
theorem init_durations (lib : CertLib) (parsePKCS1PrivateKey : List UInt8 → Except Err Unit)
    (daysBefore period : BitVec 64) (bootstrapSource ourHostname : GoString)
    (sm : List (GoString × SourceConf)) (dc : DaemonConf) :
    (DaemonConf.init lib parsePKCS1PrivateKey daysBefore period bootstrapSource ourHostname sm = .ok dc ↔
      period ≠ 0 ∧ daysBefore ≠ 0 ∧ ∃ certFactories,
        initSources lib parsePKCS1PrivateKey sm = .ok certFactories ∧ certFactories ≠ [] ∧
        dc = ⟨daysBefore, period, bootstrapSource, ourHostname, certFactories⟩) ∧
    ((BitVec.ofNat 64 second * dc.period).toInt = second * dc.period.toInt ∧
        0 < (BitVec.ofNat 64 second * dc.period).toInt ↔
      0 < dc.period.toInt ∧ dc.period.toInt ≤ 9223372036) ∧
    (dc.window.toInt = 86400000000000 * dc.daysBefore.toInt ∧ 0 < dc.window.toInt ↔
      0 < dc.daysBefore.toInt ∧ dc.daysBefore.toInt ≤ 106751) := by
  refine ⟨init_ok_iff, ?_, ?_⟩
  · rw [BitVec.toInt_mul, show (BitVec.ofNat 64 second).toInt = second from rfl]
    refine (bmod_exact_pos (by decide)).trans ?_
    unfold second
    omega
  · rw [window_toInt]
    refine (bmod_exact_pos (by decide)).trans ?_
    omega

/-- `Init` accepts `Period = -1` and `DaysBefore = 106752`: the scan never sleeps and the window wraps. -/
theorem init_accepts_nonpositive_durations :
    DaemonConf.init ⟨fun _ => (none, []), fun _ => [], fun _ => .error .badData⟩ (fun _ => .ok ()) 106752 (-1)
        (lit "acme") (lit "h") [(lit "acme", ⟨lit "self-signed", []⟩)] =
      .ok ⟨106752, -1, lit "acme", lit "h", [(lit "acme", .selfSigned)]⟩ ∧
    (BitVec.ofNat 64 second * (-1 : BitVec 64)).toInt < 0 ∧
    (DaemonConf.window ⟨106752, -1, lit "acme", lit "h", [(lit "acme", .selfSigned)]⟩).toInt < 0 :=
  ⟨rfl, by decide, by decide⟩

namespace ScanPc

def slept (dc : DaemonConf) (bootstrapped : Bool) (err : Option Err) (now : Nat) : ScanPc :=
  .sleeping (bootstrapped || err.isNone) (now + sleepFor dc bootstrapped err)

def nextHost (dc : DaemonConf) (bootstrapped : Bool) (certs : List CredhubCert) (todo : List GoString)
    (retErr : Option Err) (now : Nat) : ScanPc :=
  match todo with
  | [] => slept dc bootstrapped retErr now
  | hostname :: todo => .renewing bootstrapped certs hostname todo retErr none

/-- One step of the scan goroutine at instant `now` on the store `s`. -/
def next (dc : DaemonConf) (lib : CertLib) (now : Nat) (s : Store) (c : Choice) :
    ScanPc → Option (ScanPc × Effect)
  | .sleeping b wake => if wake ≤ now then some (.fetching b .listing, .none) else none
  | .fetching b pc =>
    match pc.next s c with
    | .error e => some (slept dc b (some e) now, .none)
    | .ok (.inl pc) => some (.fetching b pc, .none)
    | .ok (.inr certs) => some (nextHost dc b certs (scanHosts dc certs) none now, .none)
  | .renewing b certs hostname todo retErr none =>
    match renewCertIfNeeded dc lib (reach c (loadPath s (pathFromHost hostname))) now now with
    | .skip => some (nextHost dc b certs todo retErr now, .none)
    | .fail e => some (nextHost dc b certs todo (some e) now, .none)
    | .renew cs => some (.renewing b certs hostname todo retErr (some (.issue hostname cs .auto)), .none)
  | .renewing b certs hostname todo retErr (some pc) =>
    (pc.next dc lib c).map fun (next, eff) =>
      (match next with
        | .running pc => .renewing b certs hostname todo retErr (some pc)
        | .returned e => nextHost dc b certs todo (some e) now
        | .done => nextHost dc b certs todo retErr now
        | .panicked => .crashed, eff)
  | .crashed => none

/-- The hosts of a cycle come from its `FetchCerts`, and a `RenewCertNow` in progress saves the
record `getCertAndSave` issued for the current host. -/
def Sound (dc : DaemonConf) (lib : CertLib) : ScanPc → Prop
  | .renewing _ certs hostname todo _ pc =>
    (∀ h ∈ hostname :: todo, h ∈ dc.fixedHosts ∨ ∃ c ∈ certs, h = hostFromPath c.path) ∧
    match pc with
    | some (.issue h _ _) => h = hostname
    | some (.save h chc) => h = hostname ∧ ∃ cs pkey cert roots, chc = issuedRecord dc lib hostname cs pkey cert roots
    | _ => True
  | _ => True

theorem mem_scanHosts {dc : DaemonConf} {certs : List CredhubCert} {h : GoString} (mem : h ∈ scanHosts dc certs) :
    h ∈ dc.fixedHosts ∨ ∃ c ∈ certs, h = hostFromPath c.path := by
  rcases List.mem_append.mp mem with fixed | listed
  · exact .inl fixed
  · obtain ⟨c, answered, rfl⟩ := List.mem_map.mp (List.mem_filter.mp listed).1
    exact .inr ⟨c, answered, rfl⟩

theorem nextHost_sound {dc : DaemonConf} {lib : CertLib} {b : Bool} {certs : List CredhubCert} {todo : List GoString}
    {retErr : Option Err} {now : Nat} (hosts : ∀ h ∈ todo, h ∈ dc.fixedHosts ∨ ∃ c ∈ certs, h = hostFromPath c.path) :
    (nextHost dc b certs todo retErr now).Sound dc lib := by
  cases todo with
  | nil => trivial
  | cons h todo => exact ⟨hosts, trivial⟩

theorem next_sound {dc : DaemonConf} {lib : CertLib} {now : Nat} {s : Store} {c : Choice} {pc pc' : ScanPc}
    {eff : Effect} (sound : pc.Sound dc lib) (stepped : pc.next dc lib now s c = some (pc', eff)) : pc'.Sound dc lib := by
  cases pc with
  | sleeping b wake =>
    simp only [next] at stepped
    split at stepped <;> cases stepped
    trivial
  | fetching b f =>
    simp only [next] at stepped
    split at stepped <;> cases stepped
    · trivial
    · trivial
    · exact nextHost_sound fun h mem => mem_scanHosts mem
  | renewing b certs hostname todo retErr pc =>
    obtain ⟨hosts, current⟩ := sound
    have later : ∀ h ∈ todo, h ∈ dc.fixedHosts ∨ ∃ c ∈ certs, h = hostFromPath c.path :=
      fun h mem => hosts h (List.mem_cons_of_mem _ mem)
    cases pc with
    | none =>
      simp only [next] at stepped
      split at stepped <;> cases stepped
      · exact nextHost_sound later
      · exact nextHost_sound later
      · exact ⟨hosts, rfl⟩
    | some pc =>
      simp only [next, Option.map_eq_some'] at stepped
      obtain ⟨⟨n, e⟩, certStep, same⟩ := stepped
      cases same
      cases n with
      | running pc' =>
        refine ⟨hosts, ?_⟩
        rcases CertPc.next_running certStep with rfl | ⟨h, cs, issuer, pkey, cert, roots, rfl, rfl⟩
        · trivial
        · exact ⟨current, cs, pkey, cert, roots, current ▸ rfl⟩
      | returned e => exact nextHost_sound later
      | done => exact nextHost_sound later
      | panicked => trivial
  | crashed => cases stepped

/-- Only a `RenewCertNow` at its `SavePath` makes the scan write, and its send comes next. -/
theorem next_saved {dc : DaemonConf} {lib : CertLib} {now : Nat} {s : Store} {c : Choice} {pc pc' : ScanPc}
    {path : GoString} {chc : CredhubCert} (stepped : pc.next dc lib now s c = some (pc', .saved path chc)) :
    ∃ b certs hostname todo retErr h, pc = .renewing b certs hostname todo retErr (some (.save h chc)) ∧
      path = pathFromHost h ∧ pc' = .renewing b certs hostname todo retErr (some .signal) := by
  cases pc with
  | renewing b certs hostname todo retErr pc =>
    cases pc with
    | none =>
      simp only [next] at stepped
      split at stepped <;> cases stepped
    | some pc =>
      simp only [next, Option.map_eq_some'] at stepped
      obtain ⟨⟨n, e⟩, certStep, same⟩ := stepped
      cases same
      obtain ⟨h, rfl, rfl, rfl⟩ := CertPc.next_saved certStep
      exact ⟨b, certs, hostname, todo, retErr, h, rfl, rfl, rfl⟩
  | _ =>
    simp only [next] at stepped
    repeat' split at stepped
    all_goals cases stepped

theorem next_signal (dc : DaemonConf) (lib : CertLib) (now : Nat) (s : Store) (c : Choice) (b : Bool)
    (certs : List CredhubCert) (hostname : GoString) (todo : List GoString) (retErr : Option Err) :
    (ScanPc.renewing b certs hostname todo retErr (some .signal)).next dc lib now s c =
      some (nextHost dc b certs todo retErr now, .send) := rfl

theorem next_not_deleted {dc : DaemonConf} {lib : CertLib} {now : Nat} {s : Store} {c : Choice}
    {pc pc' : ScanPc} {path : GoString} : pc.next dc lib now s c ≠ some (pc', .deleted path) := by
  intro stepped
  cases pc <;> simp only [next] at stepped
  all_goals repeat' split at stepped
  all_goals simp_all [CertPc.next_not_deleted]

end ScanPc

end LeResponder
