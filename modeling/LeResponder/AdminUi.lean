import LeResponder.Output

/-! The admin server as the daemon's first observer, and its home page. -/
namespace LeResponder

section Listener

variable {τ : Type} (x509KeyPair : GoString → GoString → Except Err τ)

/-- What the admin server keeps for its listener: `ourHostname` and `ourCert`. -/
structure AdminServer (τ : Type) where
  ourHostname : GoString
  ourCert : Option τ

/-- The key pair `CertsAreUpdated` makes of a record: its trimmed certificate and CA, with its key. -/
def keyPairOf (cert : CredhubCert) : Except Err τ :=
  x509KeyPair (Strings.trimSpace cert.certificate ++ lit "\n" ++ Strings.trimSpace cert.ca ++ lit "\n") cert.privateKey

/-- `adminServer.CertsAreUpdated`: the first record of the daemon's own host becomes the listener's
certificate. -/
def AdminServer.certsAreUpdated (srv : AdminServer τ) : List CredhubCert → Option Err × AdminServer τ
  | [] => (none, srv)
  | cert :: certs =>
    if hostFromPath cert.path ≠ srv.ourHostname then srv.certsAreUpdated certs
    else
      match keyPairOf x509KeyPair cert with
      | .error e => (some e, srv)
      | .ok tlsCert => (none, { srv with ourCert := some tlsCert })

/-- The `GetCertificate` of the admin listener's TLS configuration. -/
def AdminServer.getCertificate (srv : AdminServer τ) : Except Err τ :=
  match srv.ourCert with
  | none => .error .noCertYet
  | some tlsCert => .ok tlsCert

def AdminServer.deliverEach (srv : AdminServer τ) : List (List CredhubCert) → AdminServer τ
  | [] => srv
  | certs :: rest => (srv.certsAreUpdated x509KeyPair certs).2.deliverEach rest

def installed (hn : GoString) (certs : List CredhubCert) : Option τ :=
  (certs.find? fun cert => hostFromPath cert.path = hn).bind fun cert => (keyPairOf x509KeyPair cert).toOption

theorem certsAreUpdated_eq (srv : AdminServer τ) (certs : List CredhubCert) :
    srv.certsAreUpdated x509KeyPair certs =
      match certs.find? fun cert => hostFromPath cert.path = srv.ourHostname with
      | none => (none, srv)
      | some cert =>
        match keyPairOf x509KeyPair cert with
        | .error e => (some e, srv)
        | .ok tlsCert => (none, { srv with ourCert := some tlsCert }) := by
  induction certs with
  | nil => rfl
  | cons cert certs ih =>
    by_cases own : hostFromPath cert.path = srv.ourHostname
    · simp [AdminServer.certsAreUpdated, own]
    · simp [AdminServer.certsAreUpdated, own, ih]

theorem certsAreUpdated_ourHostname (srv : AdminServer τ) (certs : List CredhubCert) :
    (srv.certsAreUpdated x509KeyPair certs).2.ourHostname = srv.ourHostname := by
  rw [certsAreUpdated_eq]
  repeat' split
  all_goals rfl

theorem certsAreUpdated_ourCert (srv : AdminServer τ) (certs : List CredhubCert) :
    (srv.certsAreUpdated x509KeyPair certs).2.ourCert = (installed x509KeyPair srv.ourHostname certs).or srv.ourCert := by
  rw [certsAreUpdated_eq, installed]
  split <;> rename_i found <;> rw [found]
  · rfl
  · split <;> rename_i parsed <;> simp [parsed, Except.toOption]

theorem AdminServer.certsAreUpdated_accepted {srv : AdminServer τ} {certs : List CredhubCert}
    (accepted : (srv.certsAreUpdated x509KeyPair certs).1 = none) {cert : CredhubCert}
    (own : certs.find? (fun cert => hostFromPath cert.path = srv.ourHostname) = some cert) :
    ∃ tlsCert, keyPairOf x509KeyPair cert = .ok tlsCert ∧ (srv.certsAreUpdated x509KeyPair certs).2.ourCert = some tlsCert := by
  rw [certsAreUpdated_eq, own] at accepted ⊢
  cases parsed : keyPairOf x509KeyPair cert with
  | error e => simp [parsed] at accepted
  | ok tlsCert => exact ⟨tlsCert, rfl, by simp [parsed]⟩

theorem deliverEach_ourCert (srv : AdminServer τ) (deliveries : List (List CredhubCert)) :
    (srv.deliverEach x509KeyPair deliveries).ourCert =
      (deliveries.reverse.findSome? (installed x509KeyPair srv.ourHostname)).or srv.ourCert := by
  induction deliveries generalizing srv with
  | nil => rfl
  | cons certs rest ih =>
    rw [AdminServer.deliverEach, ih, certsAreUpdated_ourCert, certsAreUpdated_ourHostname, List.reverse_cons,
      List.findSome?_append, Option.or_assoc]
    cases got : installed x509KeyPair srv.ourHostname certs <;> simp [List.findSome?, got]

/-- The admin listener serves the key pair of its own record from the latest delivery whose own
record parsed, and until then what it had; a delivery whose own record does not parse fails and
changes nothing. -/
theorem admin_listener_serves_latest_key_pair (srv : AdminServer τ) (deliveries : List (List CredhubCert)) :
    (srv.deliverEach x509KeyPair deliveries).ourCert =
        (deliveries.reverse.findSome? (installed x509KeyPair srv.ourHostname)).or srv.ourCert ∧
      ((srv.deliverEach x509KeyPair deliveries).getCertificate = .error .noCertYet ↔
        srv.ourCert = none ∧ ∀ certs ∈ deliveries, installed x509KeyPair srv.ourHostname certs = none) ∧
      ∀ certs, ((srv.certsAreUpdated x509KeyPair certs).1.isSome ↔
        ∃ cert, certs.find? (fun cert => hostFromPath cert.path = srv.ourHostname) = some cert ∧
          (keyPairOf x509KeyPair cert).toOption = none) ∧
        ((srv.certsAreUpdated x509KeyPair certs).1.isSome → (srv.certsAreUpdated x509KeyPair certs).2 = srv) := by
  have latest := deliverEach_ourCert x509KeyPair
  refine ⟨latest srv deliveries, ?_, fun certs => ?_⟩
  · rw [AdminServer.getCertificate, latest]
    split <;> rename_i served
    · simp only [Except.error.injEq, true_iff]
      simp only [Option.or_eq_none, List.findSome?_eq_none_iff, List.mem_reverse] at served
      exact ⟨served.2, served.1⟩
    · simp only [reduceCtorEq, false_iff, not_and]
      intro nothing always
      rw [(Option.or_eq_none.mpr ⟨List.findSome?_eq_none_iff.mpr fun certs mem => always certs
        (List.mem_reverse.mp mem), nothing⟩)] at served
      cases served
  · rw [certsAreUpdated_eq]
    split <;> rename_i found
    · simp [found]
    · split <;> rename_i parsed
      · exact ⟨iff_of_true rfl ⟨_, found, by simp [parsed, Except.toOption]⟩, fun _ => rfl⟩
      · refine ⟨iff_of_false (by simp) ?_, fun failed => by simp at failed⟩
        rintro ⟨c, same, none⟩
        rw [found] at same
        cases same
        simp [parsed, Except.toOption] at none

end Listener

section Home

variable (dc : DaemonConf) (lib : CertLib) (selfSignedManual : Bool) (daysUntil : Certificate → Int)

end Home

end LeResponder
