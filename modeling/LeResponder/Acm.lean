import LeResponder.System

/-! The ACM observer `acmObs`: `Import` puts a record into ACM, caching each hostname's ARN and
each ARN's fingerprint, against an oracle over the account's state. -/
namespace LeResponder

section GoMaps

variable {β : Type}

/-- `m[k] = v` on a Go map held as the list of its entries. -/
def mapSet (m : List (GoString × β)) (k : GoString) (v : β) : List (GoString × β) :=
  (k, v) :: m.filter fun e => e.1 ≠ k

@[simp] theorem lookupIn_mapSet (m : List (GoString × β)) (k q : GoString) (v : β) :
    lookupIn (mapSet m k v) q = if q = k then some v else lookupIn m q := by
  rw [mapSet, lookupIn, lookupIn_filter_ne]
  by_cases same : q = k <;> simp [same]

end GoMaps

structure ImportCertificateInput where
  certificate : GoString
  certificateChain : GoString
  privateKey : GoString
  certificateArn : Option GoString
  deriving DecidableEq, Repr

/-- The SDK's `ImportCertificateInput.Validate`: no empty certificate, key or chain, and an ARN of
20 bytes or more. -/
def ImportCertificateInput.valid (ici : ImportCertificateInput) : Bool :=
  !ici.certificate.isEmpty && !ici.certificateChain.isEmpty && !ici.privateKey.isEmpty &&
    ici.certificateArn.all fun arn => 20 ≤ arn.length

theorem ImportCertificateInput.valid_arn {ici : ImportCertificateInput} {arn : GoString} (valid : ici.valid = true)
    (given : ici.certificateArn = some arn) : 20 ≤ arn.length := by
  simp only [ImportCertificateInput.valid, given, Option.all_some, Bool.and_eq_true, decide_eq_true_eq] at valid
  exact valid.2

/-- The AWS calls of `acmObs` on an account in state `σ`: `session.NewSession`,
`ListCertificatesPages`, `GetCertificate` and `ImportCertificate`. -/
structure Aws (σ : Type) where
  newSession : Option Err
  listCertificatesPages : σ → List (List (GoString × GoString)) × Option Err
  getCertificate : σ → GoString → Except Err GoString
  importCertificate : σ → ImportCertificateInput → Except Err GoString × σ

/-- What `Import` reads and writes of an `acmObs`: `Sources`, whether `awsSession` is set, and the
caches `arns` (hostname to ARN) and `fingerprints` (ARN to SHA-256). -/
structure AcmObs where
  sources : List GoString
  session : Bool
  arns : List (GoString × GoString)
  fingerprints : List (GoString × List UInt8)
  deriving DecidableEq, Repr

/-- The callback of `ListCertificatesPages` in `getARNforHost`:
`a.arns[*cert.DomainName] = a.arns[*cert.CertificateArn]`. -/
def refreshSummary (m : List (GoString × GoString)) (summary : GoString × GoString) : List (GoString × GoString) :=
  mapSet m summary.1 ((lookupIn m summary.2).getD [])

def refreshARNs (pages : List (List (GoString × GoString))) : List (GoString × GoString) :=
  pages.foldl (fun m page => page.foldl refreshSummary m) []

theorem lookupIn_foldl_refreshSummary (summaries : List (GoString × GoString)) {m : List (GoString × GoString)}
    (empty : ∀ k v, lookupIn m k = some v → v = []) (k : GoString) :
    lookupIn (summaries.foldl refreshSummary m) k =
      if k ∈ summaries.map Prod.fst then some [] else lookupIn m k := by
  induction summaries generalizing m with
  | nil => simp
  | cons summary summaries ih =>
    have stored : (lookupIn m summary.2).getD [] = [] := by
      cases looked : lookupIn m summary.2 with
      | none => rfl
      | some v => exact empty _ _ looked
    have stillEmpty : ∀ k v, lookupIn (refreshSummary m summary) k = some v → v = [] := by
      intro k v
      simp only [refreshSummary, stored, lookupIn_mapSet]
      split
      · exact fun found => (Option.some_injective _ found).symm
      · exact empty k v
    rw [List.foldl_cons, ih stillEmpty]
    by_cases listed : k = summary.1
    · simp [refreshSummary, stored, listed]
    · simp only [List.map_cons, List.mem_cons, listed, false_or, refreshSummary, stored, lookupIn_mapSet, if_false]

theorem lookupIn_refreshARNs (pages : List (List (GoString × GoString))) (k : GoString) :
    lookupIn (refreshARNs pages) k = if k ∈ pages.flatten.map Prod.fst then some [] else none := by
  rw [refreshARNs, ← List.foldl_flatten, lookupIn_foldl_refreshSummary _ (by simp [lookupIn])]
  rfl

/-- Every host the ARN cache `m` holds a non-empty ARN for is one of `hosts`. -/
def ArnsFrom (hosts : List GoString) (m : List (GoString × GoString)) : Prop :=
  ∀ hn arn, lookupIn m hn = some arn → arn ≠ [] → hn ∈ hosts

theorem ArnsFrom.mono {hosts hosts' : List GoString} {m : List (GoString × GoString)} (inv : ArnsFrom hosts m)
    (sub : hosts ⊆ hosts') : ArnsFrom hosts' m :=
  fun hn arn found nonempty => sub (inv hn arn found nonempty)

theorem arnsFrom_refreshARNs (hosts : List GoString) (pages : List (List (GoString × GoString))) :
    ArnsFrom hosts (refreshARNs pages) := by
  intro hn arn found nonempty
  rw [lookupIn_refreshARNs] at found
  split at found
  · exact absurd (Option.some_injective _ found).symm nonempty
  · cases found

section Import

variable {σ : Type} (aws : Aws σ) (lib : CertLib) (sha256 : List UInt8 → List UInt8)

def initAWSSessionAndCaches (a : AcmObs) : Option Err × AcmObs :=
  if a.session then (none, a)
  else
    match aws.newSession with
    | some e => (some e, a)
    | none => (none, { a with session := true })

/-- `certFingerprint`: the SHA-256 of the bytes of the first PEM block, which must be a certificate. -/
def certFingerprint (c : GoString) : Except Err (List UInt8) :=
  match (lib.pemDecode c).1 with
  | none => .error .noCertFoundNoBlock
  | some block =>
    if block.type ≠ lit "CERTIFICATE" then .error .noCertFoundNotCertificate
    else .ok (sha256 block.bytes)

/-- `getCurrentFingerprint`: the cached fingerprint of `arn`, or that of what ACM holds, then cached. -/
def getCurrentFingerprint (a : AcmObs) (s : σ) (arn : GoString) : Except Err (List UInt8) × AcmObs :=
  match lookupIn a.fingerprints arn with
  | some fp => (.ok fp, a)
  | none =>
    match aws.getCertificate s arn with
    | .error e => (.error e, a)
    | .ok certificate =>
      match certFingerprint lib sha256 certificate with
      | .error e => (.error e, a)
      | .ok fp => (.ok fp, { a with fingerprints := mapSet a.fingerprints arn fp })

/-- `getARNforHost`: the cached ARN of `hn`, or the one a refresh from `ListCertificatesPages` caches. -/
def getARNforHost (a : AcmObs) (s : σ) (hn : GoString) : Except Err GoString × AcmObs :=
  match lookupIn a.arns hn with
  | some arn => (.ok arn, a)
  | none =>
    match aws.listCertificatesPages s with
    | (pages, some e) => (.error e, { a with arns := refreshARNs pages })
    | (pages, none) =>
      match lookupIn (refreshARNs pages) hn with
      | some arn => (.ok arn, { a with arns := refreshARNs pages })
      | none => (.ok [], { a with arns := mapSet (refreshARNs pages) hn [] })

/-- The check of `Import` before it writes: whether ACM holds under `arn` a certificate with the
fingerprint `currentFP`. -/
def sameAsLive (a : AcmObs) (s : σ) (arn : GoString) (currentFP : List UInt8) : Except Err Bool × AcmObs :=
  if arn ≠ [] then
    match getCurrentFingerprint aws lib sha256 a s arn with
    | (.error e, a) => (.error e, a)
    | (.ok liveFP, a) => (.ok (currentFP == liveFP), a)
  else (.ok false, a)

def importInput (cert : CredhubCert) (arn : GoString) : ImportCertificateInput :=
  ⟨cert.certificate, cert.ca, cert.privateKey, if arn ≠ [] then some arn else none⟩

/-- What `Import` leaves: the observer, the account, the request it sent, and its error. -/
structure Imported (σ : Type) where
  obs : AcmObs
  account : σ
  call : Option ImportCertificateInput
  err : Option Err

/-- The part of `Import` after the host's ARN is known: fingerprint, check, and write. -/
def importARN (a : AcmObs) (s : σ) (cert : CredhubCert) (hn arn : GoString) : Imported σ :=
  match certFingerprint lib sha256 cert.certificate with
  | .error e => ⟨a, s, none, some e⟩
  | .ok currentFP =>
    match sameAsLive aws lib sha256 a s arn currentFP with
    | (.error e, a) => ⟨a, s, none, some e⟩
    | (.ok true, a) => ⟨a, s, none, none⟩
    | (.ok false, a) =>
      match aws.importCertificate s (importInput cert arn) with
      | (.error e, s) => ⟨a, s, some (importInput cert arn), some e⟩
      | (.ok newArn, s) =>
        ⟨{ a with arns := mapSet a.arns hn newArn, fingerprints := mapSet a.fingerprints newArn currentFP },
          s, some (importInput cert arn), none⟩

/-- `acmObs.Import` of the record `cert`, under `awsMutex`, on the account `s`. -/
def AcmObs.importCert (a : AcmObs) (s : σ) (cert : CredhubCert) : Imported σ :=
  if cert.source ∉ a.sources then ⟨a, s, none, none⟩
  else
    match initAWSSessionAndCaches aws a with
    | (some e, a) => ⟨a, s, none, some e⟩
    | (none, a) =>
      let hn := hostFromPath cert.path
      match getARNforHost aws a s hn with
      | (.error e, a) => ⟨a, s, none, some e⟩
      | (.ok arn, a) => importARN aws lib sha256 a s cert hn arn

/-- `Import` of each record in turn, with each `ImportCertificate` request sent and its host. -/
def AcmObs.importEach (a : AcmObs) (s : σ) :
    List CredhubCert → AcmObs × σ × List (GoString × ImportCertificateInput)
  | [] => (a, s, [])
  | cert :: certs =>
    let r := a.importCert aws lib sha256 s cert
    let rest := r.obs.importEach r.account certs
    (rest.1, rest.2.1, (r.call.map fun ici => (hostFromPath cert.path, ici)).toList ++ rest.2.2)

theorem initAWSSessionAndCaches_arns (a : AcmObs) : (initAWSSessionAndCaches aws a).2.arns = a.arns := by
  unfold initAWSSessionAndCaches
  split
  · rfl
  · split <;> rfl

theorem getCurrentFingerprint_arns (a : AcmObs) (s : σ) (arn : GoString) :
    (getCurrentFingerprint aws lib sha256 a s arn).2.arns = a.arns := by
  unfold getCurrentFingerprint
  split
  · rfl
  · split
    · rfl
    · split <;> rfl

theorem sameAsLive_arns (a : AcmObs) (s : σ) (arn : GoString) (currentFP : List UInt8) :
    (sameAsLive aws lib sha256 a s arn currentFP).2.arns = a.arns := by
  unfold sameAsLive
  split
  · have kept := getCurrentFingerprint_arns aws lib sha256 a s arn
    split <;> rename_i got <;> rw [got] at kept <;> exact kept
  · rfl

theorem getARNforHost_cases (a : AcmObs) (s : σ) (hn : GoString) :
    ((getARNforHost aws a s hn).2.arns = a.arns ∧
        ∀ arn, (getARNforHost aws a s hn).1 = .ok arn → lookupIn a.arns hn = some arn) ∨
      (ArnsFrom [] (getARNforHost aws a s hn).2.arns ∧ ∀ arn, (getARNforHost aws a s hn).1 = .ok arn → arn = []) := by
  unfold getARNforHost
  split
  · exact .inl ⟨rfl, fun arn answered => by rename_i cached; cases answered; exact cached⟩
  · refine .inr ?_
    split
    · exact ⟨arnsFrom_refreshARNs _ _, fun _ answered => by cases answered⟩
    · split
      · rename_i pages _ arn listed
        refine ⟨arnsFrom_refreshARNs _ _, fun _ answered => ?_⟩
        cases answered
        rw [lookupIn_refreshARNs] at listed
        split at listed
        · exact (Option.some_injective _ listed).symm
        · cases listed
      · refine ⟨fun k v found nonempty => ?_, fun _ answered => by cases answered; rfl⟩
        rw [lookupIn_mapSet] at found
        split at found
        · exact absurd (Option.some_injective _ found).symm nonempty
        · exact arnsFrom_refreshARNs [] _ k v found nonempty

theorem importARN_cases (a : AcmObs) (s : σ) (cert : CredhubCert) (hn arn : GoString) :
    (importARN aws lib sha256 a s cert hn arn).call = none ∧ (importARN aws lib sha256 a s cert hn arn).obs.arns = a.arns ∨
      (importARN aws lib sha256 a s cert hn arn).call = some (importInput cert arn) ∧
        ((importARN aws lib sha256 a s cert hn arn).obs.arns = a.arns ∨
          ∃ newArn, (importARN aws lib sha256 a s cert hn arn).obs.arns = mapSet a.arns hn newArn) := by
  unfold importARN
  split
  · exact .inl ⟨rfl, rfl⟩
  · rename_i currentFP _
    have kept := sameAsLive_arns aws lib sha256 a s arn currentFP
    split <;> rename_i checked <;> rw [checked] at kept
    · exact .inl ⟨rfl, kept⟩
    · exact .inl ⟨rfl, kept⟩
    · split
      · exact .inr ⟨rfl, .inl kept⟩
      · exact .inr ⟨rfl, .inr ⟨_, by rw [← kept]⟩⟩

theorem importCert_cases (a : AcmObs) (s : σ) (cert : CredhubCert) :
    ∃ m, (m = a.arns ∨ ArnsFrom [] m) ∧
      ((a.importCert aws lib sha256 s cert).call = none ∧ (a.importCert aws lib sha256 s cert).obs.arns = m ∨
        ∃ arn, (lookupIn a.arns (hostFromPath cert.path) = some arn ∨ arn = []) ∧
          (a.importCert aws lib sha256 s cert).call = some (importInput cert arn) ∧
          ((a.importCert aws lib sha256 s cert).obs.arns = m ∨
            ∃ newArn, (a.importCert aws lib sha256 s cert).obs.arns = mapSet m (hostFromPath cert.path) newArn)) := by
  unfold AcmObs.importCert
  split
  · exact ⟨a.arns, .inl rfl, .inl ⟨rfl, rfl⟩⟩
  · have init := initAWSSessionAndCaches_arns aws a
    split <;> rename_i started <;> rw [started] at init
    · exact ⟨a.arns, .inl rfl, .inl ⟨rfl, init⟩⟩
    · rename_i a₁
      have got := getARNforHost_cases aws a₁ s (hostFromPath cert.path)
      rcases answered : getARNforHost aws a₁ s (hostFromPath cert.path) with ⟨_ | arn, a₂⟩ <;>
        rw [answered] at got <;> simp only [answered]
      · refine ⟨a₂.arns, ?_, .inl ⟨trivial, rfl⟩⟩
        rcases got with ⟨kept, -⟩ | ⟨empty, -⟩
        · exact .inl (kept.trans init)
        · exact .inr empty
      · have source : (a₂.arns = a.arns ∧ lookupIn a.arns (hostFromPath cert.path) = some arn) ∨
            (ArnsFrom [] a₂.arns ∧ arn = []) := by
          rcases got with ⟨kept, cached⟩ | ⟨empty, answered⟩
          · exact .inl ⟨kept.trans init, init ▸ cached arn rfl⟩
          · exact .inr ⟨empty, answered arn rfl⟩
        refine ⟨a₂.arns, source.imp (·.1) (·.1), ?_⟩
        rcases importARN_cases aws lib sha256 a₂ s cert (hostFromPath cert.path) arn with
          ⟨none, kept⟩ | ⟨called, written⟩
        · exact .inl ⟨none, kept⟩
        · exact .inr ⟨arn, source.imp (·.2) (·.2), called, written⟩

theorem importCert_arnsFrom {hosts : List GoString} {a : AcmObs} (s : σ) (cert : CredhubCert)
    (inv : ArnsFrom hosts a.arns) :
    ArnsFrom (hosts ++ ((a.importCert aws lib sha256 s cert).call.map fun _ => hostFromPath cert.path).toList)
        (a.importCert aws lib sha256 s cert).obs.arns ∧
      ∀ ici, (a.importCert aws lib sha256 s cert).call = some ici → hostFromPath cert.path ∉ hosts →
        ici.certificateArn = none := by
  obtain ⟨m, start, outcome⟩ := importCert_cases aws lib sha256 a s cert
  have invm : ArnsFrom hosts m := by
    rcases start with rfl | empty
    · exact inv
    · exact empty.mono (List.nil_subset _)
  rcases outcome with ⟨none, kept⟩ | ⟨arn, source, called, written⟩
  · rw [none, kept]
    exact ⟨by simpa using invm, fun _ sent => by cases sent⟩
  · rw [called]
    refine ⟨?_, fun ici sent fresh => ?_⟩
    · have wider : ArnsFrom (hosts ++ [hostFromPath cert.path]) m := invm.mono (List.subset_append_left _ _)
      simp only [Option.map_some', Option.toList_some]
      rcases written with kept | ⟨newArn, kept⟩ <;> rw [kept]
      · exact wider
      · intro hn arn' found nonempty
        rw [lookupIn_mapSet] at found
        split at found
        · simp [*]
        · exact wider hn arn' found nonempty
    · cases sent
      have empty : arn = [] := source.elim (fun cached => by
        by_contra nonempty
        exact fresh (inv _ _ cached nonempty)) id
      simp [importInput, empty]

/-- From a cache whose non-empty ARNs are for `hosts` only, the first request for any other host has
no ARN. -/
theorem importEach_first_request_new (certs : List CredhubCert) {hosts : List GoString} {a : AcmObs} {s : σ}
    (inv : ArnsFrom hosts a.arns) {pre post : List (GoString × ImportCertificateInput)} {hn : GoString}
    {ici : ImportCertificateInput} (sent : (a.importEach aws lib sha256 s certs).2.2 = pre ++ (hn, ici) :: post)
    (fresh : hn ∉ hosts) (first : hn ∉ pre.map Prod.fst) : ici.certificateArn = none := by
  induction certs generalizing hosts a s pre with
  | nil => simp [AcmObs.importEach] at sent
  | cons cert certs ih =>
    obtain ⟨step, request⟩ := importCert_arnsFrom aws lib sha256 s cert inv
    simp only [AcmObs.importEach] at sent
    cases called : (a.importCert aws lib sha256 s cert).call with
    | none =>
      rw [called] at sent step
      exact ih (by simpa using step) sent fresh first
    | some ici₀ =>
      rw [called] at sent step
      simp only [Option.map_some', Option.toList_some, List.singleton_append] at sent step
      cases pre with
      | nil =>
        simp only [List.nil_append, List.cons.injEq, Prod.mk.injEq] at sent
        obtain ⟨⟨rfl, rfl⟩, -⟩ := sent
        exact request _ called fresh
      | cons p pre =>
        simp only [List.cons_append, List.cons.injEq] at sent
        obtain ⟨rfl, sent⟩ := sent
        simp only [List.map_cons, List.mem_cons, not_or] at first
        exact ih step sent (by simp [fresh, first.1]) first.2

end Import

structure AcmCertificate where
  arn : GoString
  domainName : GoString
  certificate : GoString
  deriving DecidableEq, Repr

/-- ACM on an account of certificates: `ImportCertificate` fails on a request the SDK rejects,
replaces the certificate of a given ARN, and otherwise adds one under a new ARN. -/
def accountAws (domainOf : GoString → GoString) : Aws (List AcmCertificate) where
  newSession := none
  listCertificatesPages account := ([account.map fun c => (c.domainName, c.arn)], none)
  getCertificate account arn :=
    match account.find? (·.arn = arn) with
    | some c => .ok c.certificate
    | none => .error (.external (lit "ResourceNotFoundException"))
  importCertificate account ici :=
    if ici.valid then
      match ici.certificateArn with
      | some arn =>
        (.ok arn, account.map fun c => if c.arn = arn then { c with certificate := ici.certificate } else c)
      | none =>
        let arn := lit ("arn:aws:acm:certificate/" ++ toString (account.length + 1))
        (.ok arn, account ++ [⟨arn, domainOf ici.certificate, ici.certificate⟩])
    else (.error (.external (lit "InvalidParameter")), account)

/-- The refresh of `getARNforHost` stores the empty ARN for every listed domain, so from empty caches
every host's first `Import` asks for a new certificate, and ACM ends with two for `a`. -/
theorem acm_refresh_loses_arns :
    (∀ pages k, lookupIn (refreshARNs pages) k = if k ∈ pages.flatten.map Prod.fst then some [] else none) ∧
    (∀ {σ : Type} (aws : Aws σ) lib sha256 (a : AcmObs) (s : σ) certs, a.arns = [] →
      ∀ pre hn ici post, (a.importEach aws lib sha256 s certs).2.2 = pre ++ (hn, ici) :: post →
        hn ∉ pre.map Prod.fst → ici.certificateArn = none) ∧
    ((AcmObs.mk [lit "acme"] false [] []).importCert (accountAws fun _ => lit "a") exampleLib id
        [⟨lit "arn:aws:acm:certificate/1", lit "a", lit "x"⟩]
        { exampleRecord "y" with path := pathFromHost (lit "a"), ca := lit "ca" }).account =
      [⟨lit "arn:aws:acm:certificate/1", lit "a", lit "x"⟩, ⟨lit "arn:aws:acm:certificate/2", lit "a", lit "y"⟩] :=
  ⟨lookupIn_refreshARNs,
    fun aws lib sha256 a s certs cleared _ _ _ _ sent first =>
      have empty : ArnsFrom [] a.arns := fun _ _ found => by simp [cleared, lookupIn] at found
      importEach_first_request_new aws lib sha256 certs empty sent (List.not_mem_nil _) first,
    by decide⟩

end LeResponder
