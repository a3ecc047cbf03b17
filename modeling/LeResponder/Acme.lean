import LeResponder.Store

/-! The ACME certificate source and the challenge bridge it publishes into, against a CA whose every
answer may depend on all calls before it through the state `σ`. -/
namespace LeResponder

/-- The calls `acmeCertSource` makes on `acme.Client` and on the crypto library. -/
structure Acme (σ : Type) where
  register : σ → GoString → Except Err Unit × σ
  authorizeOrder : σ → GoString → Except Err Order × σ
  getAuthorization : σ → GoString → Except Err Authorization × σ
  http01ChallengeResponse : σ → GoString → Except Err GoString × σ
  dns01ChallengeRecord : σ → GoString → Except Err GoString × σ
  accept : σ → Challenge → Except Err Challenge × σ
  waitAuthorization : σ → GoString → Except Err Authorization × σ
  waitOrder : σ → GoString → Except Err Order × σ
  createCertificateRequest : σ → GoString → List UInt8 → Except Err (List UInt8) × σ
  createOrderCert : σ → GoString → List UInt8 → Except Err (List (List UInt8)) × σ

def http01ChallengePath (token : GoString) : GoString := lit "/.well-known/acme-challenge/" ++ token

/-- How a Go call ends: it returns a value or an error, or it panics. -/
inductive Outcome (α : Type) where
  | ok (a : α)
  | error (e : Err)
  | panic
  deriving DecidableEq, Repr

def Outcome.ofExcept : Except Err α → Outcome α
  | .ok a => .ok a
  | .error e => .error e

/-- `serverResponder.challengeResponse`. -/
abbrev Bridge := GoString → Option (List UInt8)

/-- `SetChallengeValue` and `ClearChallengeValue`. -/
inductive BridgeOp where
  | set (k : GoString) (v : List UInt8)
  | clear (k : GoString)
  deriving DecidableEq, Repr

def BridgeOp.apply (b : Bridge) : BridgeOp → Bridge
  | .set k v => Function.update b k (some v)
  | .clear k => Function.update b k none

def BridgeOp.runAll (ops : List BridgeOp) (b : Bridge) : Bridge := ops.foldl BridgeOp.apply b

def published : List BridgeOp → List GoString
  | [] => []
  | .set k _ :: rest => k :: published rest
  | .clear _ :: rest => published rest

/-- `acmeCertSource`: its configuration and `acmeKnownRegistered`. -/
structure AcmeCertSource where
  privateKey : GoString
  url : GoString
  emailContact : GoString
  acmeKnownRegistered : Bool
  deriving DecidableEq, Repr

structure RsaKey where
  pkcs1 : List UInt8
  deriving DecidableEq, Repr

/-- The frame of a call: the ACME state, the bridge operations so far and the deferred clears. -/
structure Frame (σ : Type) where
  ca : σ
  ops : List BridgeOp
  deferred : List GoString

/-- What a call of the source leaves: its registration state, the ACME state, every bridge
operation in order, and how it ended. -/
structure Call (σ α : Type) where
  source : AcmeCertSource
  ca : σ
  ops : List BridgeOp
  result : Outcome α

/-- Leaving a function, by a return or a panic, runs its deferred calls latest first. -/
def Frame.exit (fr : Frame σ) (acs : AcmeCertSource) (r : Outcome α) : Call σ α :=
  ⟨acs, fr.ca, fr.ops ++ fr.deferred.map .clear, r⟩

variable {σ : Type} (acme : Acme σ)

/-- `acmeCertSource.ensureRegistered`: the flag is set after the first attempt, whatever its outcome. -/
def ensureRegistered (acs : AcmeCertSource) (s : σ) : AcmeCertSource × σ :=
  if acs.acmeKnownRegistered then (acs, s)
  else ({ acs with acmeKnownRegistered := true }, (acme.register s (lit "mailto:" ++ acs.emailContact)).2)

def issueCert (s : σ) (o : Order) (hostname : GoString) (pkey : RsaKey) :
    Except Err (List (List UInt8)) × σ :=
  match acme.createCertificateRequest s hostname pkey.pkcs1 with
  | (.error e, s) => (.error e, s)
  | (.ok csr, s) =>
    match acme.createOrderCert s o.finalizeURL csr with
    | (.error e, s) => (.error e, s)
    | (.ok der, s) => if der = [] then (.error .noCertsReturned, s) else (.ok der, s)

/-- The loop of `AutoFetchCert` over a pending order's authorizations: `some r` when the function
leaves early with `r`. On an error of `GetAuthorization`, reading `z.Challenges` panics. -/
def satisfyEach : Frame σ → List GoString → Frame σ × Option (Outcome (List (List UInt8)))
  | fr, [] => (fr, none)
  | fr, zurl :: rest =>
    match acme.getAuthorization fr.ca zurl with
    | (.error _, s) => ({ fr with ca := s }, some .panic)
    | (.ok z, s) =>
      match z.challenges.find? (·.type = lit "http-01") with
      | none => ({ fr with ca := s }, some (.error .noSupportedChallenge))
      | some chal =>
        match acme.http01ChallengeResponse s chal.token with
        | (.error e, s) => ({ fr with ca := s }, some (.error e))
        | (.ok v, s) =>
          let k := http01ChallengePath chal.token
          let fr : Frame σ := ⟨s, fr.ops ++ [.set k v], k :: fr.deferred⟩
          match acme.accept fr.ca chal with
          | (.error e, s) => ({ fr with ca := s }, some (.error e))
          | (.ok _, s) =>
            match acme.waitAuthorization s z.uri with
            | (.error e, s) => ({ fr with ca := s }, some (.error e))
            | (.ok _, s) => satisfyEach { fr with ca := s } rest

/-- `acmeCertSource.AutoFetchCert`. -/
def autoFetchCert (acs : AcmeCertSource) (s : σ) (pkey : RsaKey) (hostname : GoString) :
    Call σ (List (List UInt8)) :=
  let (acs, s) := ensureRegistered acme acs s
  match acme.authorizeOrder s hostname with
  | (.error e, s) => Frame.exit ⟨s, [], []⟩ acs (.error e)
  | (.ok o, s) =>
    if o.status = lit "ready" then
      let (r, s) := issueCert acme s o hostname pkey
      Frame.exit ⟨s, [], []⟩ acs (.ofExcept r)
    else if o.status = lit "pending" then
      match satisfyEach acme ⟨s, [], []⟩ o.authzURLs with
      | (fr, some r) => fr.exit acs r
      | (fr, none) =>
        match acme.waitOrder fr.ca o.uri with
        | (.error e, s) => Frame.exit { fr with ca := s } acs (.error e)
        | (.ok o, s) =>
          let (r, s) := issueCert acme s o hostname pkey
          Frame.exit { fr with ca := s } acs (.ofExcept r)
    else Frame.exit ⟨s, [], []⟩ acs (.error (.invalidOrderStatus o.status))


def Frame.Published (fr : Frame σ) : Prop :=
  published fr.ops = fr.deferred.reverse ∧ ∀ op ∈ fr.ops, ∃ k v, op = .set k v

@[simp] theorem published_append (a b : List BridgeOp) : published (a ++ b) = published a ++ published b := by
  induction a with
  | nil => rfl
  | cons op rest ih => cases op <;> simp [published, ih]

@[simp] theorem published_clears (ks : List GoString) : published (ks.map .clear) = [] := by
  induction ks with
  | nil => rfl
  | cons k rest ih => simp [published, ih]

theorem Frame.Published.publish {fr : Frame σ} (start : fr.Published) (s : σ) (k : GoString) (v : List UInt8) :
    (⟨s, fr.ops ++ [.set k v], k :: fr.deferred⟩ : Frame σ).Published := by
  refine ⟨by simp [published, start.1], fun op mem => ?_⟩
  rcases List.mem_append.mp mem with old | new
  · exact start.2 op old
  · exact ⟨k, v, List.mem_singleton.mp new⟩

theorem satisfyEach_published {fr : Frame σ} (start : fr.Published) (urls : List GoString) :
    (satisfyEach acme fr urls).1.Published := by
  induction urls generalizing fr with
  | nil => exact start
  | cons zurl rest ih =>
    simp only [satisfyEach]
    repeat' split
    all_goals first
      | exact start
      | exact start.publish _ _ _
      | exact ih (start.publish _ _ _)

theorem runAll_append (a b : List BridgeOp) (bridge : Bridge) :
    BridgeOp.runAll (a ++ b) bridge = BridgeOp.runAll b (BridgeOp.runAll a bridge) := List.foldl_append _ _ _ _

theorem runAll_clears (ks : List GoString) (bridge : Bridge) :
    BridgeOp.runAll (ks.map .clear) bridge = fun k => if k ∈ ks then none else bridge k := by
  induction ks generalizing bridge with
  | nil => rfl
  | cons k rest ih =>
    funext x
    simp only [List.map_cons, BridgeOp.runAll, List.foldl_cons] at ih ⊢
    rw [ih]
    by_cases hx : x = k <;> simp [BridgeOp.apply, Function.update, hx]

theorem runAll_sets_other {ops : List BridgeOp} (sets : ∀ op ∈ ops, ∃ k v, op = .set k v) {k : GoString}
    (absent : k ∉ published ops) (bridge : Bridge) : BridgeOp.runAll ops bridge k = bridge k := by
  induction ops generalizing bridge with
  | nil => rfl
  | cons op rest ih =>
    obtain ⟨k', v, rfl⟩ := sets op (List.mem_cons_self _ _)
    simp only [published, List.mem_cons, not_or] at absent
    simp only [BridgeOp.runAll, List.foldl_cons] at ih ⊢
    rw [ih (fun op h => sets op (List.mem_cons_of_mem _ h)) absent.2]
    simp [BridgeOp.apply, Function.update, absent.1]

theorem Frame.Published.exit {fr : Frame σ} (pub : fr.Published) (acs : AcmeCertSource) (r : Outcome α)
    (bridge : Bridge) :
    BridgeOp.runAll (fr.exit acs r).ops bridge =
      fun k => if k ∈ published (fr.exit acs r).ops then none else bridge k := by
  funext k
  simp only [Frame.exit, runAll_append, runAll_clears, published_append, published_clears, List.append_nil, pub.1, List.mem_reverse]
  split
  · rfl
  · exact runAll_sets_other pub.2 (by simpa [pub.1]) bridge

theorem autoFetchCert_exit (acs : AcmeCertSource) (s : σ) (pkey : RsaKey) (hostname : GoString) :
    ∃ (fr : Frame σ) (acs' : AcmeCertSource) (r : Outcome (List (List UInt8))), fr.Published ∧
      autoFetchCert acme acs s pkey hostname = fr.exit acs' r := by
  have empty : ∀ s : σ, (⟨s, [], []⟩ : Frame σ).Published := fun _ => ⟨rfl, by simp⟩
  simp only [autoFetchCert]
  split
  · exact ⟨_, _, _, empty _, rfl⟩
  · split
    · exact ⟨_, _, _, empty _, rfl⟩
    · split
      · rename_i o s₁ _ _ _
        have pub := satisfyEach_published acme (empty s₁) o.authzURLs
        rcases looped : satisfyEach acme ⟨s₁, [], []⟩ o.authzURLs with ⟨fr, _ | r⟩
        all_goals
          rw [looped] at pub
          simp only
          repeat' split
          all_goals refine ⟨_, _, _, ?_, rfl⟩; exact pub
      · exact ⟨_, _, _, empty _, rfl⟩

/-- Whatever the CA answers, and on every exit including a panic, `AutoFetchCert` leaves the bridge
as it found it but for the keys it published, which are gone. -/
theorem autoFetchCert_clears_published (acs : AcmeCertSource) (s : σ) (pkey : RsaKey)
    (hostname : GoString) (bridge : Bridge) :
    BridgeOp.runAll (autoFetchCert acme acs s pkey hostname).ops bridge =
      fun k => if k ∈ published (autoFetchCert acme acs s pkey hostname).ops then none else bridge k := by
  obtain ⟨fr, acs', r, pub, called⟩ := autoFetchCert_exit acme acs s pkey hostname
  rw [called]
  exact pub.exit acs' r bridge

theorem issueCert_ok {s : σ} {o : Order} {hostname : GoString} {pkey : RsaKey} {der : List (List UInt8)}
    (issued : (issueCert acme s o hostname pkey).1 = .ok der) : der ≠ [] := by
  simp only [issueCert] at issued
  repeat' split at issued
  all_goals first | (cases issued; assumption) | cases issued

theorem satisfyEach_early_not_ok (fr : Frame σ) (urls : List GoString) (der : List (List UInt8)) :
    (satisfyEach acme fr urls).2 ≠ some (.ok der) := by
  induction urls generalizing fr with
  | nil => simp [satisfyEach]
  | cons zurl rest ih =>
    simp only [satisfyEach]
    repeat' split
    all_goals first | exact ih _ | simp

theorem autoFetchCert_ok_ne_nil {acs : AcmeCertSource} {s : σ} {pkey : RsaKey} {hostname : GoString}
    {der : List (List UInt8)} (issued : (autoFetchCert acme acs s pkey hostname).result = .ok der) : der ≠ [] := by
  simp only [autoFetchCert] at issued
  repeat' split at issued
  all_goals simp only [Frame.exit, Outcome.ofExcept] at issued
  all_goals first
    | (cases issued; done)
    | (cases issued; exact absurd (congrArg Prod.snd ‹satisfyEach _ _ _ = _›) (satisfyEach_early_not_ok acme _ _ _))
    | (split at issued <;> cases issued; exact issueCert_ok acme ‹_›)

/-- A CA that takes the order as pending with one authorization, then fails to serve it. -/
def authzLookupFails : Acme Unit where
  register _ _ := (.ok (), ())
  authorizeOrder _ _ := (.ok ⟨lit "https://acme.test/order/1", lit "pending",
    [lit "https://acme.test/authz/1"], lit "https://acme.test/finalize/1"⟩, ())
  getAuthorization _ _ := (.error (.external (lit "acme: 503 Service Unavailable")), ())
  http01ChallengeResponse _ token := (.ok token, ())
  dns01ChallengeRecord _ token := (.ok token, ())
  accept _ chal := (.ok chal, ())
  waitAuthorization _ uri := (.ok ⟨uri, []⟩, ())
  waitOrder _ uri := (.ok ⟨uri, lit "ready", [], []⟩, ())
  createCertificateRequest _ _ _ := (.ok [], ())
  createOrderCert _ _ _ := (.ok [[48]], ())

theorem autoFetchCert_panics_on_authorization_error :
    (autoFetchCert authzLookupFails ⟨[], [], [], false⟩ () ⟨[]⟩ (lit "example.org")).result = .panic := by
  decide

/-- The loop of `ManualStartChallenge` over a pending order's authorizations. -/
def findDNSChallenge (s : σ) (chal : Option Challenge) : List GoString → Except Err (Option Challenge) × σ
  | [] => (.ok chal, s)
  | zurl :: rest =>
    match acme.getAuthorization s zurl with
    | (.error e, s) => (.error e, s)
    | (.ok z, s) =>
      match (z.challenges.find? (·.type = lit "dns-01")).or chal with
      | none => (.error .noSupportedChallenge, s)
      | some c => findDNSChallenge s (some c) rest

/-- `newDNSChallenge`: it reads `chal.Token` first, so a nil challenge panics. -/
def newDNSChallenge (s : σ) (o : Order) (chal : Option Challenge) (hostname : GoString) :
    Outcome AcmeChallenge × σ :=
  match chal with
  | none => (.panic, s)
  | some chal =>
    match acme.dns01ChallengeRecord s chal.token with
    | (.error e, s) => (.error e, s)
    | (.ok val, s) =>
      (.ok ⟨lit "Create DNS TXT record:\nName:  _acme-challenge." ++ hostname ++ lit ".\nValue: " ++ val,
        some chal, some o⟩, s)

/-- `acmeCertSource.ManualStartChallenge`. Only a pending order is searched for a challenge. -/
def manualStartChallenge (acs : AcmeCertSource) (s : σ) (hostname : GoString) : Call σ AcmeChallenge :=
  let (acs, s) := ensureRegistered acme acs s
  match acme.authorizeOrder s hostname with
  | (.error e, s) => Frame.exit ⟨s, [], []⟩ acs (.error e)
  | (.ok o, s) =>
    if o.status = lit "ready" then Frame.exit ⟨s, [], []⟩ acs (.error .alreadyAuthorized)
    else
      let (found, s) : Except Err (Option Challenge) × σ :=
        if o.status = lit "pending" then findDNSChallenge acme s none o.authzURLs else (.ok none, s)
      match found with
      | .error e => Frame.exit ⟨s, [], []⟩ acs (.error e)
      | .ok chal =>
        let (r, s) := newDNSChallenge acme s o chal hostname
        Frame.exit ⟨s, [], []⟩ acs r

/-- `acmeCertSource.CompleteChallenge`: a nil challenge or order in the stored `acmeChallenge` panics. -/
def completeChallenge (acs : AcmeCertSource) (s : σ) (pkey : RsaKey) (hostname : GoString)
    (ac : AcmeChallenge) : Call σ (List (List UInt8)) :=
  let (acs, s) := ensureRegistered acme acs s
  match ac.challenge with
  | none => Frame.exit ⟨s, [], []⟩ acs .panic
  | some chal =>
    match acme.accept s chal with
    | (.error e, s) => Frame.exit ⟨s, [], []⟩ acs (.error e)
    | (.ok c, s) =>
      match acme.waitAuthorization s c.uri with
      | (.error e, s) => Frame.exit ⟨s, [], []⟩ acs (.error e)
      | (.ok _, s) =>
        match ac.order with
        | none => Frame.exit ⟨s, [], []⟩ acs .panic
        | some order =>
          match acme.waitOrder s order.uri with
          | (.error e, s) => Frame.exit ⟨s, [], []⟩ acs (.error e)
          | (.ok o, s) =>
            let (r, s) := issueCert acme s o hostname pkey
            Frame.exit ⟨s, [], []⟩ acs (.ofExcept r)

/-- `ManualStartChallenge` panics when the order is neither ready nor pending, or pending with no
authorization. -/
theorem manualStartChallenge_nil_challenge {acs : AcmeCertSource} {s : σ} {hostname : GoString}
    {o : Order} {s₁ : σ} (ordered : acme.authorizeOrder (ensureRegistered acme acs s).2 hostname = (.ok o, s₁))
    (notReady : o.status ≠ lit "ready") (noAuthz : o.status ≠ lit "pending" ∨ o.authzURLs = []) :
    (manualStartChallenge acme acs s hostname).result = .panic := by
  simp only [manualStartChallenge, ordered, notReady, if_false]
  rcases noAuthz with other | none
  · simp [other, newDNSChallenge, Frame.exit]
  · by_cases pending : o.status = lit "pending" <;>
      simp [pending, none, findDNSChallenge, newDNSChallenge, Frame.exit]

/-- A CA answering every order with `status` and `authzURLs`, each offering one dns-01 challenge. -/
def orderAnswered (status : GoString) (authzURLs : List GoString) : Acme Unit where
  register _ _ := (.ok (), ())
  authorizeOrder _ _ := (.ok ⟨lit "https://acme.test/order/1", status, authzURLs, lit "https://acme.test/finalize/1"⟩, ())
  getAuthorization _ uri := (.ok ⟨uri, [⟨lit "dns-01", lit "https://acme.test/chal/1", lit "token"⟩]⟩, ())
  http01ChallengeResponse _ token := (.ok token, ())
  dns01ChallengeRecord _ token := (.ok token, ())
  accept _ chal := (.ok chal, ())
  waitAuthorization _ uri := (.ok ⟨uri, []⟩, ())
  waitOrder _ uri := (.ok ⟨uri, lit "ready", [], []⟩, ())
  createCertificateRequest _ _ _ := (.ok [], ())
  createOrderCert _ _ _ := (.ok [[48]], ())

theorem manualStartChallenge_dereferences_nil_challenge :
    (manualStartChallenge (orderAnswered (lit "valid") [lit "https://acme.test/authz/1"]) ⟨[], [], [], true⟩ ()
      (lit "example.org")).result = .panic ∧
    (manualStartChallenge (orderAnswered (lit "pending") []) ⟨[], [], [], true⟩ ()
      (lit "example.org")).result = .panic :=
  ⟨manualStartChallenge_nil_challenge _ rfl (by decide) (.inl (by decide)),
    manualStartChallenge_nil_challenge _ rfl (by decide) (.inr rfl)⟩

@[simp] theorem ensureRegistered_known (acs : AcmeCertSource) (s : σ) :
    (ensureRegistered acme acs s).1.acmeKnownRegistered = true := by
  unfold ensureRegistered
  split <;> simp [*]

theorem autoFetchCert_source (acs : AcmeCertSource) (s : σ) (pkey : RsaKey) (hostname : GoString) :
    (autoFetchCert acme acs s pkey hostname).source = (ensureRegistered acme acs s).1 := by
  simp only [autoFetchCert]
  repeat' split
  all_goals rfl

theorem manualStartChallenge_source (acs : AcmeCertSource) (s : σ) (hostname : GoString) :
    (manualStartChallenge acme acs s hostname).source = (ensureRegistered acme acs s).1 := by
  simp only [manualStartChallenge]
  repeat' split
  all_goals rfl

theorem completeChallenge_source (acs : AcmeCertSource) (s : σ) (pkey : RsaKey) (hostname : GoString)
    (ac : AcmeChallenge) :
    (completeChallenge acme acs s pkey hostname ac).source = (ensureRegistered acme acs s).1 := by
  simp only [completeChallenge]
  repeat' split
  all_goals rfl

/-- A CA whose every call fails, counting the registrations asked of it. -/
def registrationFails : Acme Nat where
  register n _ := (.error (.external (lit "acme: 503 Service Unavailable")), n + 1)
  authorizeOrder n _ := (.error (.external (lit "acme: 503 Service Unavailable")), n)
  getAuthorization n _ := (.error (.external (lit "acme: 503 Service Unavailable")), n)
  http01ChallengeResponse n _ := (.error (.external (lit "acme: 503 Service Unavailable")), n)
  dns01ChallengeRecord n _ := (.error (.external (lit "acme: 503 Service Unavailable")), n)
  accept n _ := (.error (.external (lit "acme: 503 Service Unavailable")), n)
  waitAuthorization n _ := (.error (.external (lit "acme: 503 Service Unavailable")), n)
  waitOrder n _ := (.error (.external (lit "acme: 503 Service Unavailable")), n)
  createCertificateRequest n _ _ := (.error (.external (lit "acme: 503 Service Unavailable")), n)
  createOrderCert n _ _ := (.error (.external (lit "acme: 503 Service Unavailable")), n)

/-- A call the daemon makes on the source, with its arguments. -/
inductive SourceOp where
  | autoFetch (pkey : RsaKey) (hostname : GoString)
  | manualStart (hostname : GoString)
  | complete (pkey : RsaKey) (hostname : GoString) (ac : AcmeChallenge)

def SourceOp.apply (st : AcmeCertSource × σ) : SourceOp → AcmeCertSource × σ
  | .autoFetch pkey hostname =>
    ((autoFetchCert acme st.1 st.2 pkey hostname).source, (autoFetchCert acme st.1 st.2 pkey hostname).ca)
  | .manualStart hostname =>
    ((manualStartChallenge acme st.1 st.2 hostname).source, (manualStartChallenge acme st.1 st.2 hostname).ca)
  | .complete pkey hostname ac =>
    ((completeChallenge acme st.1 st.2 pkey hostname ac).source, (completeChallenge acme st.1 st.2 pkey hostname ac).ca)

theorem SourceOp.apply_known (st : AcmeCertSource × σ) (op : SourceOp) :
    (SourceOp.apply acme st op).1.acmeKnownRegistered = true := by
  cases op <;> simp [SourceOp.apply, autoFetchCert_source, manualStartChallenge_source, completeChallenge_source]

theorem SourceOp.foldl_known (st : AcmeCertSource × σ) (op : SourceOp) (ops : List SourceOp) :
    ((op :: ops).foldl (SourceOp.apply acme) st).1.acmeKnownRegistered = true := by
  induction ops generalizing st op with
  | nil => exact SourceOp.apply_known acme st op
  | cons op' rest ih => exact ih (SourceOp.apply acme st op) op'

/-- `ensureRegistered` registers while the flag is unset and sets it whatever `Register` returned;
with the flag set it calls nothing. Every call leaves the flag set, so only the first registers. -/
theorem registration_attempted_once :
    (∀ (acs : AcmeCertSource) (s : σ), acs.acmeKnownRegistered = false →
      ensureRegistered acme acs s =
        ({ acs with acmeKnownRegistered := true }, (acme.register s (lit "mailto:" ++ acs.emailContact)).2)) ∧
    (∀ (acs : AcmeCertSource) (s : σ), acs.acmeKnownRegistered = true → ensureRegistered acme acs s = (acs, s)) ∧
    ∀ (op : SourceOp) (ops : List SourceOp) (acs : AcmeCertSource) (s : σ),
      ((op :: ops).foldl (SourceOp.apply acme) (acs, s)).1.acmeKnownRegistered = true :=
  ⟨fun _ _ unknown => by simp [ensureRegistered, unknown], fun _ _ known => by simp [ensureRegistered, known],
    fun op ops acs s => SourceOp.foldl_known acme (acs, s) op ops⟩

/-- A failing `Register` is asked once: an `AutoFetchCert` then a `ManualStartChallenge` on an
unregistered source make one registration and leave the flag set. -/
theorem registration_never_retried :
    (∀ n email, (registrationFails.register n email).1 ≠ .ok ()) ∧
    [.autoFetch ⟨[]⟩ (lit "example.org"), .manualStart (lit "example.org")].foldl
      (SourceOp.apply registrationFails) (⟨[], [], [], false⟩, 0) = (⟨[], [], [], true⟩, 1) :=
  ⟨fun _ _ => nofun, by decide⟩

end LeResponder
