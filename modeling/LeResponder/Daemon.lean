import LeResponder.Store
import Mathlib.Algebra.Group.Nat.Basic

/-! The daemon's configuration after `Init` and the decision `renewCertIfNeeded` takes on a loaded
record. Times are nanoseconds; `time.Duration` wraps at 64 bits. -/
namespace LeResponder

inductive SourceType where
  | selfSigned
  | acme
  deriving DecidableEq, Repr

/-- `daemonConf` as `Init` leaves it. -/
structure DaemonConf where
  daysBefore : BitVec 64
  period : BitVec 64
  bootstrapSource : GoString
  ourHN : GoString
  certFactories : List (GoString × SourceType)

namespace DaemonConf

/-- Set by `Init`: the bootstrap sentinel first, in case it takes longer. -/
def fixedHosts (dc : DaemonConf) : List GoString := [lit "proxy-bootstrap", dc.ourHN]

def isFixedHost (dc : DaemonConf) (hostname : GoString) : Bool := dc.fixedHosts.any (· == hostname)

def canDelete (dc : DaemonConf) (hostname : GoString) : Bool := !dc.isFixedHost hostname

theorem isFixedHost_iff (dc : DaemonConf) (hostname : GoString) :
    dc.isFixedHost hostname = true ↔ hostname = lit "proxy-bootstrap" ∨ hostname = dc.ourHN := by
  simp only [isFixedHost, fixedHosts, List.any_cons, List.any_nil, Bool.or_false, Bool.or_eq_true, beq_iff_eq]
  exact or_congr eq_comm eq_comm

def shipToProxy (dc : DaemonConf) (hostname : GoString) : Bool := hostname != dc.ourHN

/-- `24 * time.Hour * time.Duration(dc.DaysBefore)`. -/
def window (dc : DaemonConf) : BitVec 64 := BitVec.ofInt 64 (24 * 3600 * 1000000000) * dc.daysBefore

end DaemonConf

structure PemBlock where
  type : GoString
  headers : List (GoString × GoString)
  bytes : List UInt8
  deriving DecidableEq, Repr

/-- What the daemon reads of an `x509.Certificate`. -/
structure Certificate where
  notAfter : Int
  deriving DecidableEq, Repr

/-- The certificate functions of Go's library: `pem.Decode`, `pem.EncodeToMemory` and
`x509.ParseCertificate`. -/
structure CertLib where
  pemDecode : GoString → Option PemBlock × GoString
  encodeToMemory : PemBlock → GoString
  parseCertificate : List UInt8 → Except Err Certificate

structure SourceConf where
  type : GoString
  privateKey : GoString
  deriving DecidableEq, Repr

/-- `acmeCertSource.Init`: the key must decode to a header-less `RSA PRIVATE KEY` block that
`x509.ParsePKCS1PrivateKey` accepts. -/
def acmeInit (lib : CertLib) (parsePKCS1PrivateKey : List UInt8 → Except Err Unit) (privateKey : GoString) :
    Except Err Unit :=
  match (lib.pemDecode privateKey).1 with
  | none => .error .noPrivateKeyInPem
  | some block =>
    if block.type ≠ lit "RSA PRIVATE KEY" ∨ block.headers ≠ [] then .error .invalidPrivateKeyInPem
    else parsePKCS1PrivateKey block.bytes

def initSources (lib : CertLib) (parsePKCS1PrivateKey : List UInt8 → Except Err Unit) :
    List (GoString × SourceConf) → Except Err (List (GoString × SourceType))
  | [] => .ok []
  | (name, val) :: rest =>
    if val.type = lit "self-signed" then (initSources lib parsePKCS1PrivateKey rest).map ((name, .selfSigned) :: ·)
    else if val.type = lit "acme" then
      match acmeInit lib parsePKCS1PrivateKey val.privateKey with
      | .error e => .error e
      | .ok () => (initSources lib parsePKCS1PrivateKey rest).map ((name, .acme) :: ·)
    else .error .unknownSourceType

/-- `daemonConf.Init` with the YAML's `DaysBefore`, `Period` and `Bootstrap.Source`. -/
def DaemonConf.init (lib : CertLib) (parsePKCS1PrivateKey : List UInt8 → Except Err Unit)
    (daysBefore period : BitVec 64) (bootstrapSource ourHostname : GoString)
    (sm : List (GoString × SourceConf)) : Except Err DaemonConf :=
  if period = 0 then .error .periodNotSet
  else if daysBefore = 0 then .error .daysBeforeNotSet
  else
    match initSources lib parsePKCS1PrivateKey sm with
    | .error e => .error e
    | .ok certFactories =>
      if certFactories.length = 0 then .error .noCertSources
      else .ok ⟨daysBefore, period, bootstrapSource, ourHostname, certFactories⟩

theorem init_ok_iff {lib : CertLib} {parsePKCS1PrivateKey : List UInt8 → Except Err Unit}
    {daysBefore period : BitVec 64} {bootstrapSource ourHostname : GoString}
    {sm : List (GoString × SourceConf)} {dc : DaemonConf} :
    DaemonConf.init lib parsePKCS1PrivateKey daysBefore period bootstrapSource ourHostname sm = .ok dc ↔
      period ≠ 0 ∧ daysBefore ≠ 0 ∧ ∃ certFactories,
        initSources lib parsePKCS1PrivateKey sm = .ok certFactories ∧ certFactories ≠ [] ∧
        dc = ⟨daysBefore, period, bootstrapSource, ourHostname, certFactories⟩ := by
  unfold DaemonConf.init
  by_cases hp : period = 0
  · simp [hp]
  rw [if_neg hp]
  by_cases hd : daysBefore = 0
  · simp [hd]
  rw [if_neg hd]
  cases initSources lib parsePKCS1PrivateKey sm with
  | error e => simp
  | ok certFactories =>
    by_cases empty : certFactories = []
    · simp [empty]
    · simp only [List.length_eq_zero, if_neg empty]
      constructor
      · rintro ⟨⟩
        exact ⟨hp, hd, _, rfl, empty, rfl⟩
      · rintro ⟨-, -, _, ⟨⟩, -, rfl⟩
        rfl

theorem bmod_exact_pos {c x : Int} (hc : 0 < c) :
    ((c * x).bmod (2 ^ 64) = c * x ∧ 0 < (c * x).bmod (2 ^ 64)) ↔ 0 < x ∧ c * x < 9223372036854775808 := by
  have below : (c * x).bmod (2 ^ 64) < 9223372036854775808 := Int.bmod_lt (by decide)
  constructor
  · rintro ⟨exact, pos⟩
    rw [exact] at below pos
    exact ⟨Int.lt_of_mul_lt_mul_left (by simpa using pos) hc.le, below⟩
  · rintro ⟨pos, fits⟩
    have product := Int.mul_pos hc pos
    generalize c * x = p at product fits ⊢
    rw [Int.bmod_def, Int.emod_eq_of_lt (by omega) (by omega)]
    simp only [ite_eq_left_iff]
    omega

inductive Renewal where
  | renew (source : GoString)
  | skip
  | fail (e : Err)
  deriving DecidableEq, Repr

/-- `renewCertIfNeeded` after its `LoadPath` answered `loaded`, with its two readings of `time.Now()`;
`renew source` is the call `RenewCertNow(hostname, source)`. -/
def renewCertIfNeeded (dc : DaemonConf) (lib : CertLib) (loaded : Except Err CredhubCert)
    (now₁ now₂ : Int) : Renewal :=
  match loaded with
  | .error e => if e = .notFound then .renew dc.bootstrapSource else .fail e
  | .ok chc =>
    if chc.challenge.isSome then .fail .challengeNotEmpty else
    match (lib.pemDecode chc.certificate).1 with
    | none => .fail .noCertInPem
    | some block =>
      if block.type ≠ lit "CERTIFICATE" ∨ block.headers ≠ [] then .fail .invalidCertInPem else
      match lib.parseCertificate block.bytes with
      | .error e => .fail e
      | .ok pc =>
        if pc.notAfter < now₁ then .fail .alreadyExpired
        else if pc.notAfter < now₂ + dc.window.toInt then .renew chc.source
        else .skip

def Due (dc : DaemonConf) (lib : CertLib) (chc : CredhubCert) (now₁ now₂ : Int) : Prop :=
  chc.challenge = none ∧ ∃ block pc, (lib.pemDecode chc.certificate).1 = some block ∧
    block.type = lit "CERTIFICATE" ∧ block.headers = [] ∧ lib.parseCertificate block.bytes = .ok pc ∧
    now₁ ≤ pc.notAfter ∧ pc.notAfter < now₂ + dc.window.toInt

theorem window_toInt (dc : DaemonConf) :
    dc.window.toInt = (86400000000000 * dc.daysBefore.toInt).bmod (2 ^ 64) := by
  rw [DaemonConf.window, BitVec.toInt_mul]
  rfl

/-- Below 106752 days the window is the exact product; from there on it wraps. -/
theorem window_exact (dc : DaemonConf) (pos : 0 < dc.daysBefore.toInt)
    (fits : dc.daysBefore.toInt ≤ 106751) : dc.window.toInt = 86400000000000 * dc.daysBefore.toInt := by
  rw [window_toInt, Int.bmod_def, Int.emod_eq_of_lt (by omega) (by omega)]
  simp only [ite_eq_left_iff]
  omega

theorem renewCertIfNeeded_ok_renew {dc : DaemonConf} {lib : CertLib} {chc : CredhubCert}
    {now₁ now₂ : Int} {source : GoString} :
    renewCertIfNeeded dc lib (.ok chc) now₁ now₂ = .renew source ↔
      Due dc lib chc now₁ now₂ ∧ source = chc.source := by
  constructor
  · intro renews
    simp only [renewCertIfNeeded] at renews
    split at renews
    · cases renews
    · rename_i hc
      split at renews
      · cases renews
      · rename_i block hd
        split at renews
        · cases renews
        · rename_i shape
          split at renews
          · cases renews
          · rename_i pc hp
            split at renews
            · cases renews
            · split at renews
              · cases renews
                simp only [not_or, not_not] at shape
                exact ⟨⟨by simpa using hc, block, pc, hd, shape.1, shape.2, hp, by omega, by assumption⟩, rfl⟩
              · cases renews
  · rintro ⟨⟨hc, block, pc, hd, ht, hh, hp, fresh, due⟩, rfl⟩
    simp [renewCertIfNeeded, hc, hd, ht, hh, hp, due, not_lt.mpr fresh]

/-- `renewCertIfNeeded` renews exactly a missing record (from the bootstrap source) or one with no
challenge whose certificate parses and expires inside the 64-bit window (from its own source). -/
theorem renewCertIfNeeded_renews_iff {dc : DaemonConf} {lib : CertLib}
    {loaded : Except Err CredhubCert} {now₁ now₂ : Int} {source : GoString} :
    (renewCertIfNeeded dc lib loaded now₁ now₂ = .renew source ↔
      (loaded = .error .notFound ∧ source = dc.bootstrapSource) ∨
        ∃ chc, loaded = .ok chc ∧ Due dc lib chc now₁ now₂ ∧ source = chc.source) ∧
      dc.window.toInt = (86400000000000 * dc.daysBefore.toInt).bmod (2 ^ 64) ∧
      (0 < dc.daysBefore.toInt → dc.daysBefore.toInt ≤ 106751 →
        dc.window.toInt = 86400000000000 * dc.daysBefore.toInt) := by
  refine ⟨?_, window_toInt dc, window_exact dc⟩
  cases loaded with
  | error e =>
    by_cases missing : e = .notFound
    · simp [renewCertIfNeeded, missing, eq_comm]
    · simp [renewCertIfNeeded, missing]
  | ok chc => simp [renewCertIfNeeded_ok_renew]

/-- With `DaysBefore = 106752` the window wraps negative: a certificate expiring in a day is left alone. -/
theorem renewal_window_wraps :
    renewCertIfNeeded ⟨106752, 60, [], [], []⟩
        ⟨fun _ => (some ⟨lit "CERTIFICATE", [], []⟩, []), fun _ => [], fun _ => .ok ⟨86400000000000⟩⟩
        (.ok (CredhubCert.empty (lit "acme"))) 0 0 = .skip ∧
      (0 : Int) ≤ 86400000000000 ∧
      (86400000000000 : Int) < 0 + (106752 : BitVec 64).toInt * (24 * 3600 * 1000000000) :=
  ⟨by decide, by decide, by decide⟩

end LeResponder
