import LeResponder.Acm

/-! The caches of `acmObs` against the account they stand for: the check that lets `Import` skip the
write is sound, and a record just imported is skipped when imported again. -/
namespace LeResponder

section Stages

variable {σ : Type} (aws : Aws σ) (lib : CertLib) (sha256 : List UInt8 → List UInt8)

theorem initAWSSessionAndCaches_frame (a : AcmObs) :
    (initAWSSessionAndCaches aws a).2 = { a with session := (initAWSSessionAndCaches aws a).2.session } := by
  unfold initAWSSessionAndCaches
  repeat' split
  all_goals rfl

theorem initAWSSessionAndCaches_started {a : AcmObs} (made : (initAWSSessionAndCaches aws a).1 = none) :
    (initAWSSessionAndCaches aws a).2.session = true := by
  unfold initAWSSessionAndCaches at made ⊢
  split
  · assumption
  · split <;> simp_all

theorem initAWSSessionAndCaches_of_session {a : AcmObs} (made : a.session = true) :
    initAWSSessionAndCaches aws a = (none, a) := by
  simp [initAWSSessionAndCaches, made]

theorem getARNforHost_frame (a : AcmObs) (s : σ) (hn : GoString) :
    (getARNforHost aws a s hn).2 = { a with arns := (getARNforHost aws a s hn).2.arns } := by
  unfold getARNforHost
  repeat' split
  all_goals rfl

theorem getARNforHost_answer {a : AcmObs} {s : σ} {hn arn : GoString}
    (answered : (getARNforHost aws a s hn).1 = .ok arn) : lookupIn (getARNforHost aws a s hn).2.arns hn = some arn := by
  unfold getARNforHost at answered ⊢
  repeat' split at answered
  all_goals simp_all

theorem getARNforHost_hit {a : AcmObs} {s : σ} {hn arn : GoString} (cached : lookupIn a.arns hn = some arn) :
    getARNforHost aws a s hn = (.ok arn, a) := by
  simp [getARNforHost, cached]

theorem getCurrentFingerprint_frame (a : AcmObs) (s : σ) (arn : GoString) :
    (getCurrentFingerprint aws lib sha256 a s arn).2 =
      { a with fingerprints := (getCurrentFingerprint aws lib sha256 a s arn).2.fingerprints } := by
  unfold getCurrentFingerprint
  repeat' split
  all_goals rfl

theorem getCurrentFingerprint_answer {a : AcmObs} {s : σ} {arn : GoString} {fp : List UInt8}
    (answered : (getCurrentFingerprint aws lib sha256 a s arn).1 = .ok fp) :
    lookupIn (getCurrentFingerprint aws lib sha256 a s arn).2.fingerprints arn = some fp := by
  unfold getCurrentFingerprint at answered ⊢
  repeat' split at answered
  all_goals simp_all

theorem getCurrentFingerprint_hit {a : AcmObs} {s : σ} {arn : GoString} {fp : List UInt8}
    (cached : lookupIn a.fingerprints arn = some fp) :
    getCurrentFingerprint aws lib sha256 a s arn = (.ok fp, a) := by
  simp [getCurrentFingerprint, cached]

theorem sameAsLive_frame (a : AcmObs) (s : σ) (arn : GoString) (currentFP : List UInt8) :
    (sameAsLive aws lib sha256 a s arn currentFP).2 =
      { a with fingerprints := (sameAsLive aws lib sha256 a s arn currentFP).2.fingerprints } := by
  unfold sameAsLive
  split
  · have framed := getCurrentFingerprint_frame aws lib sha256 a s arn
    split <;> rename_i got <;> rw [got] at framed <;> exact framed
  · rfl

theorem sameAsLive_true {a : AcmObs} {s : σ} {arn : GoString} {currentFP : List UInt8}
    (same : (sameAsLive aws lib sha256 a s arn currentFP).1 = .ok true) :
    arn ≠ [] ∧ lookupIn (sameAsLive aws lib sha256 a s arn currentFP).2.fingerprints arn = some currentFP := by
  by_cases empty : arn = []
  · simp [sameAsLive, empty] at same
  · refine ⟨empty, ?_⟩
    have cached := @getCurrentFingerprint_answer σ aws lib sha256 a s arn
    rcases got : getCurrentFingerprint aws lib sha256 a s arn with ⟨e | liveFP, a'⟩ <;>
      simp only [sameAsLive, empty, got, ne_eq, not_false_eq_true, ite_true] at same cached ⊢
    · cases same
    · simp only [Except.ok.injEq, beq_iff_eq] at same
      subst same
      exact cached rfl

theorem sameAsLive_hit {a : AcmObs} {s : σ} {arn : GoString} {fp : List UInt8} (nonempty : arn ≠ [])
    (cached : lookupIn a.fingerprints arn = some fp) : sameAsLive aws lib sha256 a s arn fp = (.ok true, a) := by
  simp [sameAsLive, nonempty, getCurrentFingerprint_hit aws lib sha256 cached]

theorem importARN_ok {a : AcmObs} {s : σ} {cert : CredhubCert} {hn arn : GoString}
    (ok : (importARN aws lib sha256 a s cert hn arn).err = none) :
    (importARN aws lib sha256 a s cert hn arn).obs.sources = a.sources ∧
    (importARN aws lib sha256 a s cert hn arn).obs.session = a.session ∧
    ∃ arn' currentFP, certFingerprint lib sha256 cert.certificate = .ok currentFP ∧
      lookupIn (importARN aws lib sha256 a s cert hn arn).obs.fingerprints arn' = some currentFP ∧
      ((importARN aws lib sha256 a s cert hn arn).call = none ∧ (importARN aws lib sha256 a s cert hn arn).account = s ∧
          arn' = arn ∧ arn ≠ [] ∧ (importARN aws lib sha256 a s cert hn arn).obs.arns = a.arns ∨
        (importARN aws lib sha256 a s cert hn arn).call = some (importInput cert arn) ∧
          aws.importCertificate s (importInput cert arn) = (.ok arn', (importARN aws lib sha256 a s cert hn arn).account) ∧
          (importARN aws lib sha256 a s cert hn arn).obs.arns = mapSet a.arns hn arn') := by
  rcases fingerprinted : certFingerprint lib sha256 cert.certificate with e | currentFP
  · simp [importARN, fingerprinted] at ok
  · have framed := sameAsLive_frame aws lib sha256 a s arn currentFP
    have checked := @sameAsLive_true σ aws lib sha256 a s arn currentFP
    rcases same : sameAsLive aws lib sha256 a s arn currentFP with ⟨e | _ | _, a'⟩ <;>
      rw [same] at framed checked
    all_goals
      have sources := congrArg AcmObs.sources framed
      have session := congrArg AcmObs.session framed
      have arns := congrArg AcmObs.arns framed
    · simp [importARN, fingerprinted, same] at ok
    · rcases imported : aws.importCertificate s (importInput cert arn) with ⟨e | newArn, s'⟩
      · simp [importARN, fingerprinted, same, imported] at ok
      · have wrote : importARN aws lib sha256 a s cert hn arn =
            ⟨{ a' with arns := mapSet a'.arns hn newArn, fingerprints := mapSet a'.fingerprints newArn currentFP },
              s', some (importInput cert arn), none⟩ := by
          simp only [importARN, fingerprinted, same, imported]
        rw [wrote]
        exact ⟨sources, session, newArn, currentFP, rfl, by simp, .inr ⟨rfl, rfl, by rw [arns]⟩⟩
    · obtain ⟨nonempty, cached⟩ := checked rfl
      have skipped : importARN aws lib sha256 a s cert hn arn = ⟨a', s, none, none⟩ := by
        simp only [importARN, fingerprinted, same]
      rw [skipped]
      exact ⟨sources, session, arn, currentFP, rfl, cached, .inl ⟨rfl, rfl, rfl, nonempty, arns⟩⟩

/-- An `Import` of an accepted record that returns nil caches an ARN for the host and the record's
fingerprint for that ARN. -/
theorem importCert_ok {a : AcmObs} {s : σ} {cert : CredhubCert} (accepted : cert.source ∈ a.sources)
    (ok : (a.importCert aws lib sha256 s cert).err = none) :
    (a.importCert aws lib sha256 s cert).obs.sources = a.sources ∧
    (a.importCert aws lib sha256 s cert).obs.session = true ∧
    ∃ arn currentFP, certFingerprint lib sha256 cert.certificate = .ok currentFP ∧
      lookupIn (a.importCert aws lib sha256 s cert).obs.arns (hostFromPath cert.path) = some arn ∧
      lookupIn (a.importCert aws lib sha256 s cert).obs.fingerprints arn = some currentFP ∧
      ((a.importCert aws lib sha256 s cert).call = none ∧ (a.importCert aws lib sha256 s cert).account = s ∧ arn ≠ [] ∨
        ∃ ici, (a.importCert aws lib sha256 s cert).call = some ici ∧
          aws.importCertificate s ici = (.ok arn, (a.importCert aws lib sha256 s cert).account)) := by
  have started := @initAWSSessionAndCaches_started σ aws a
  have initFramed := initAWSSessionAndCaches_frame aws a
  rcases init : initAWSSessionAndCaches aws a with ⟨_ | e, a₁⟩ <;> rw [init] at started initFramed
  · have answered := @getARNforHost_answer σ aws a₁ s (hostFromPath cert.path)
    have framed := getARNforHost_frame aws a₁ s (hostFromPath cert.path)
    rcases got : getARNforHost aws a₁ s (hostFromPath cert.path) with ⟨e | arn, a₂⟩ <;>
      rw [got] at answered framed
    · simp [AcmObs.importCert, accepted, init, got] at ok
    · have reached : a.importCert aws lib sha256 s cert = importARN aws lib sha256 a₂ s cert (hostFromPath cert.path) arn := by
        simp only [AcmObs.importCert, accepted, not_true_eq_false, ↓reduceIte, init, got]
      rw [reached] at ok ⊢
      have cachedArn := answered rfl
      have sources₁ := congrArg AcmObs.sources initFramed
      have sources₂ := congrArg AcmObs.sources framed
      have session₂ := congrArg AcmObs.session framed
      have sources : a₂.sources = a.sources := sources₂.trans sources₁
      have session : a₂.session = true := session₂.trans (started rfl)
      obtain ⟨kept, made, arn', currentFP, fingerprinted, cachedFP, skipped | written⟩ := importARN_ok aws lib sha256 ok
      · obtain ⟨none, same, rfl, nonempty, arns⟩ := skipped
        exact ⟨kept.trans sources, made.trans session, arn', currentFP, fingerprinted, arns ▸ cachedArn, cachedFP,
          .inl ⟨none, same, nonempty⟩⟩
      · obtain ⟨sent, answeredArn, arns⟩ := written
        exact ⟨kept.trans sources, made.trans session, arn', currentFP, fingerprinted, by simp [arns], cachedFP,
          .inr ⟨_, sent, answeredArn⟩⟩
  · simp [AcmObs.importCert, accepted, init] at ok

/-- The fast path: with the session made and both caches hitting, `Import` calls nothing and returns
nil. -/
theorem importCert_hit {a : AcmObs} {s : σ} {cert : CredhubCert} {arn : GoString} {currentFP : List UInt8}
    (accepted : cert.source ∈ a.sources) (made : a.session = true)
    (cachedArn : lookupIn a.arns (hostFromPath cert.path) = some arn) (nonempty : arn ≠ [])
    (fingerprinted : certFingerprint lib sha256 cert.certificate = .ok currentFP)
    (cachedFP : lookupIn a.fingerprints arn = some currentFP) :
    a.importCert aws lib sha256 s cert = ⟨a, s, none, none⟩ := by
  simp only [AcmObs.importCert, accepted, not_true_eq_false, ↓reduceIte, initAWSSessionAndCaches_of_session aws made,
    getARNforHost_hit aws cachedArn, importARN, fingerprinted, sameAsLive_hit aws lib sha256 nonempty cachedFP]

/-- Right after an `Import` of an accepted record that returned nil, importing it again calls
nothing and changes nothing, given that ACM never answers an empty ARN. -/
theorem reimport_changes_nothing (answers : ∀ s ici arn s', aws.importCertificate s ici = (.ok arn, s') → arn ≠ [])
    {a : AcmObs} {s : σ} {cert : CredhubCert} (accepted : cert.source ∈ a.sources)
    (ok : (a.importCert aws lib sha256 s cert).err = none) :
    (a.importCert aws lib sha256 s cert).obs.importCert aws lib sha256 (a.importCert aws lib sha256 s cert).account cert =
      ⟨(a.importCert aws lib sha256 s cert).obs, (a.importCert aws lib sha256 s cert).account, none, none⟩ := by
  obtain ⟨sources, made, arn, currentFP, fingerprinted, cachedArn, cachedFP, skipped | ⟨ici, -, answered⟩⟩ :=
    importCert_ok aws lib sha256 accepted ok
  · exact importCert_hit aws lib sha256 (sources ▸ accepted) made cachedArn skipped.2.2 fingerprinted cachedFP
  · exact importCert_hit aws lib sha256 (sources ▸ accepted) made cachedArn (answers _ _ _ _ answered) fingerprinted
      cachedFP

end Stages

section Held

variable {σ : Type} (aws : Aws σ) (lib : CertLib) (sha256 : List UInt8 → List UInt8)
  (holds : σ → GoString → Option GoString)

/-- ACM's side of `Import` when nobody else writes the account, seen through `holds s arn`. -/
structure Aws.Keeps : Prop where
  get : ∀ s arn c, aws.getCertificate s arn = .ok c → holds s arn = some c
  imported : ∀ s ici arn s', aws.importCertificate s ici = (.ok arn, s') →
    holds s' arn = some ici.certificate ∧ ∀ other, other ≠ arn → holds s' other = holds s other
  failed : ∀ s ici e s', aws.importCertificate s ici = (.error e, s') → holds s' = holds s

/-- Every fingerprint in the cache is that of the certificate the account holds under its ARN. -/
def FingerprintsHeld (fingerprints : List (GoString × List UInt8)) (s : σ) : Prop :=
  ∀ arn fp, lookupIn fingerprints arn = some fp → ∃ c, holds s arn = some c ∧ certFingerprint lib sha256 c = .ok fp

variable {aws lib sha256 holds}

theorem fingerprintsHeld_nil (s : σ) : FingerprintsHeld lib sha256 holds [] s := by
  intro arn fp found
  cases found

theorem FingerprintsHeld.set {fps : List (GoString × List UInt8)} {s : σ} (held : FingerprintsHeld lib sha256 holds fps s)
    {arn c : GoString} {fp : List UInt8} (holding : holds s arn = some c)
    (fingerprinted : certFingerprint lib sha256 c = .ok fp) : FingerprintsHeld lib sha256 holds (mapSet fps arn fp) s := by
  intro arn' fp' found
  rw [lookupIn_mapSet] at found
  split at found
  · rename_i same
    subst same
    cases found
    exact ⟨c, holding, fingerprinted⟩
  · exact held arn' fp' found

theorem FingerprintsHeld.imported (keeps : aws.Keeps holds) {fps : List (GoString × List UInt8)} {s s' : σ}
    (held : FingerprintsHeld lib sha256 holds fps s) {ici : ImportCertificateInput} {arn : GoString} {fp : List UInt8}
    (imported : aws.importCertificate s ici = (.ok arn, s'))
    (fingerprinted : certFingerprint lib sha256 ici.certificate = .ok fp) :
    FingerprintsHeld lib sha256 holds (mapSet fps arn fp) s' := by
  obtain ⟨holding, others⟩ := keeps.imported s ici arn s' imported
  intro arn' fp' found
  rw [lookupIn_mapSet] at found
  split at found
  · rename_i same
    subst same
    cases found
    exact ⟨ici.certificate, holding, fingerprinted⟩
  · rw [others arn' ‹_›]
    exact held arn' fp' found

theorem getCurrentFingerprint_held (keeps : aws.Keeps holds) {a : AcmObs} {s : σ}
    (held : FingerprintsHeld lib sha256 holds a.fingerprints s) (arn : GoString) :
    FingerprintsHeld lib sha256 holds (getCurrentFingerprint aws lib sha256 a s arn).2.fingerprints s := by
  unfold getCurrentFingerprint
  split
  · exact held
  · split
    · exact held
    · rename_i c got
      split
      · exact held
      · exact held.set (keeps.get s arn c got) ‹_›

theorem sameAsLive_held (keeps : aws.Keeps holds) {a : AcmObs} {s : σ}
    (held : FingerprintsHeld lib sha256 holds a.fingerprints s) (arn : GoString) (currentFP : List UInt8) :
    FingerprintsHeld lib sha256 holds (sameAsLive aws lib sha256 a s arn currentFP).2.fingerprints s := by
  unfold sameAsLive
  split
  · have kept := getCurrentFingerprint_held keeps held arn
    split <;> rename_i got <;> rw [got] at kept <;> exact kept
  · exact held

theorem importARN_held (keeps : aws.Keeps holds) {a : AcmObs} {s : σ}
    (held : FingerprintsHeld lib sha256 holds a.fingerprints s) (cert : CredhubCert) (hn arn : GoString) :
    FingerprintsHeld lib sha256 holds (importARN aws lib sha256 a s cert hn arn).obs.fingerprints
      (importARN aws lib sha256 a s cert hn arn).account := by
  unfold importARN
  split
  · exact held
  · rename_i currentFP fingerprinted
    have kept := sameAsLive_held keeps held arn currentFP
    split <;> rename_i checked <;> rw [checked] at kept
    · exact kept
    · exact kept
    · split <;> rename_i imported
      · intro arn' fp found
        rw [keeps.failed _ _ _ _ imported]
        exact kept arn' fp found
      · exact kept.imported keeps imported fingerprinted

/-- One `Import`, whatever it does, keeps the fingerprint cache held. -/
theorem importCert_held (keeps : aws.Keeps holds) {a : AcmObs} {s : σ}
    (held : FingerprintsHeld lib sha256 holds a.fingerprints s) (cert : CredhubCert) :
    FingerprintsHeld lib sha256 holds (a.importCert aws lib sha256 s cert).obs.fingerprints
      (a.importCert aws lib sha256 s cert).account := by
  unfold AcmObs.importCert
  split
  · exact held
  · have held₁ : FingerprintsHeld lib sha256 holds (initAWSSessionAndCaches aws a).2.fingerprints s := by
      rw [initAWSSessionAndCaches_frame]
      exact held
    rcases init : initAWSSessionAndCaches aws a with ⟨_ | e, a₁⟩ <;> rw [init] at held₁ <;> simp only
    · have held₂ : FingerprintsHeld lib sha256 holds (getARNforHost aws a₁ s (hostFromPath cert.path)).2.fingerprints s := by
        rw [getARNforHost_frame]
        exact held₁
      rcases got : getARNforHost aws a₁ s (hostFromPath cert.path) with ⟨e | arn, a₂⟩ <;>
        rw [got] at held₂ <;> simp only
      · exact held₂
      · exact importARN_held keeps held₂ _ _ _
    · exact held₁

theorem importEach_held (keeps : aws.Keeps holds) (certs : List CredhubCert) {a : AcmObs} {s : σ}
    (held : FingerprintsHeld lib sha256 holds a.fingerprints s) :
    FingerprintsHeld lib sha256 holds (a.importEach aws lib sha256 s certs).1.fingerprints
      (a.importEach aws lib sha256 s certs).2.1 := by
  induction certs generalizing a s with
  | nil => exact held
  | cons cert certs ih => exact ih (importCert_held keeps held cert)

/-- On an account only the observer writes, the fingerprint cache stays held over any run of
`Import`s, so one that returns nil leaves ACM holding a certificate with the record's fingerprint. -/
theorem import_keeps_fingerprints_held (keeps : aws.Keeps holds) {a : AcmObs} {s : σ}
    (held : FingerprintsHeld lib sha256 holds a.fingerprints s) (certs : List CredhubCert) {b : AcmObs} {t : σ}
    {log : List (GoString × ImportCertificateInput)} (ran : a.importEach aws lib sha256 s certs = (b, t, log))
    (cert : CredhubCert) :
    FingerprintsHeld lib sha256 holds b.fingerprints t ∧
      (cert.source ∈ b.sources → (b.importCert aws lib sha256 t cert).err = none →
        ∃ arn c, lookupIn (b.importCert aws lib sha256 t cert).obs.arns (hostFromPath cert.path) = some arn ∧
          holds (b.importCert aws lib sha256 t cert).account arn = some c ∧
          certFingerprint lib sha256 c = certFingerprint lib sha256 cert.certificate) := by
  have heldAfter := importEach_held keeps certs held
  rw [ran] at heldAfter
  refine ⟨heldAfter, fun accepted ok => ?_⟩
  obtain ⟨-, -, arn, currentFP, fingerprinted, cachedArn, cachedFP, -⟩ := importCert_ok aws lib sha256 accepted ok
  obtain ⟨c, holding, sameFP⟩ := importCert_held keeps heldAfter cert arn currentFP cachedFP
  exact ⟨arn, c, cachedArn, holding, sameFP.trans fingerprinted.symm⟩

end Held

/-- ACM on an account of domains and certificates by ARN: `ImportCertificate` fails on a request
the SDK rejects, and otherwise writes under the given ARN or a new one. -/
def heldAws (domainOf : GoString → GoString) : Aws (List (GoString × GoString × GoString)) where
  newSession := none
  listCertificatesPages account := ([account.map fun e => (e.2.1, e.1)], none)
  getCertificate account arn :=
    match lookupIn account arn with
    | some (_, c) => .ok c
    | none => .error (.external (lit "ResourceNotFoundException"))
  importCertificate account ici :=
    if ici.valid then
      match ici.certificateArn with
      | some arn => (.ok arn, mapSet account arn (domainOf ici.certificate, ici.certificate))
      | none =>
        let arn := lit "arn:aws:acm:certificate/" ++ (account.map Prod.fst).flatten
        (.ok arn, mapSet account arn (domainOf ici.certificate, ici.certificate))
    else (.error (.external (lit "InvalidParameter")), account)

def heldCertificate (account : List (GoString × GoString × GoString)) (arn : GoString) : Option GoString :=
  (lookupIn account arn).map (·.2)

theorem heldAws_keeps (domainOf : GoString → GoString) : (heldAws domainOf).Keeps heldCertificate := by
  refine ⟨fun account arn c got => ?_, fun account ici arn account' imported => ?_, fun account ici e account' failed => ?_⟩
  · simp only [heldAws] at got
    split at got <;> cases got
    simp [heldCertificate, *]
  · simp only [heldAws] at imported
    repeat' split at imported
    all_goals cases imported
    all_goals exact ⟨by simp [heldCertificate], fun other ne => by simp [heldCertificate, ne]⟩
  · simp only [heldAws] at failed
    repeat' split at failed
    all_goals cases failed
    rfl

theorem heldAws_answers (domainOf : GoString → GoString) :
    ∀ account ici arn account', (heldAws domainOf).importCertificate account ici = (.ok arn, account') → arn ≠ [] := by
  intro account ici arn account' imported
  simp only [heldAws] at imported
  split at imported <;> rename_i valid
  · split at imported <;> rename_i given <;> cases imported
    · exact List.ne_nil_of_length_pos (by have := ImportCertificateInput.valid_arn valid given; omega)
    · exact List.append_ne_nil_of_left_ne_nil (by decide) _
  · cases imported

/-- A record of the source `acme` for the host `a`, with its chain, imported into an empty account. -/
def importedA : CredhubCert := { exampleRecord "y" with path := pathFromHost (lit "a"), ca := lit "ca" }

theorem reimport_a_changes_nothing :
    (∀ account ici arn account', (heldAws fun _ => lit "a").importCertificate account ici = (.ok arn, account') →
      arn ≠ []) ∧
    lit "acme" ∈ [lit "acme"] ∧
      ((AcmObs.mk [lit "acme"] false [] []).importCert (heldAws fun _ => lit "a") exampleLib id [] importedA).err = none ∧
      let r := (AcmObs.mk [lit "acme"] false [] []).importCert (heldAws fun _ => lit "a") exampleLib id [] importedA
      r.obs.importCert (heldAws fun _ => lit "a") exampleLib id r.account importedA = ⟨r.obs, r.account, none, none⟩ :=
  ⟨heldAws_answers _, by decide, by decide,
    reimport_changes_nothing _ exampleLib id (heldAws_answers _) (by decide) (by decide)⟩

def firstImportA : AcmObs × List (GoString × GoString × GoString) × List (GoString × ImportCertificateInput) :=
  (AcmObs.mk [lit "acme"] false [] []).importEach (heldAws fun _ => lit "a") exampleLib id [] [importedA]

def renewedA : CredhubCert := { importedA with certificate := lit "z" }

/-- An `Import` of `importedA` returns nil; an `Import` of its renewal then returns nil, and ACM
holds it under the ARN cached for `a`. -/
theorem import_a_keeps_fingerprints_held :
    ((AcmObs.mk [lit "acme"] false [] []).importCert (heldAws fun _ => lit "a") exampleLib id [] importedA).err = none ∧
    firstImportA.2.2 ≠ [] ∧ renewedA.source ∈ firstImportA.1.sources ∧
    (firstImportA.1.importCert (heldAws fun _ => lit "a") exampleLib id firstImportA.2.1 renewedA).err = none ∧
    FingerprintsHeld exampleLib id heldCertificate firstImportA.1.fingerprints firstImportA.2.1 ∧
    ∃ arn c, lookupIn (firstImportA.1.importCert (heldAws fun _ => lit "a") exampleLib id firstImportA.2.1
        renewedA).obs.arns (hostFromPath renewedA.path) = some arn ∧
      heldCertificate (firstImportA.1.importCert (heldAws fun _ => lit "a") exampleLib id firstImportA.2.1
        renewedA).account arn = some c ∧
      certFingerprint exampleLib id c = certFingerprint exampleLib id renewedA.certificate := by
  have accepted : renewedA.source ∈ firstImportA.1.sources := by decide
  have ok : (firstImportA.1.importCert (heldAws fun _ => lit "a") exampleLib id firstImportA.2.1 renewedA).err = none := by
    decide
  obtain ⟨held, stored⟩ := import_keeps_fingerprints_held (heldAws_keeps _) (fingerprintsHeld_nil [])
    [importedA] (rfl : _ = (firstImportA.1, firstImportA.2.1, firstImportA.2.2)) renewedA
  exact ⟨by decide, by decide, accepted, ok, held, stored accepted ok⟩

end LeResponder
