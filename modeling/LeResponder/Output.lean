import LeResponder.Daemon

/-! The `outputObserver`: `createTarball` builds the archive the proxy serves, and `CertsAreUpdated`
hands it to every S3 bucket, each skipping a tarball equal to its last upload. -/
namespace LeResponder

namespace Strings

/-- The UTF-8 encodings of the runes `unicode.IsSpace` accepts in Go 1.14. -/
def spaceRunes : List GoString :=
  ["\t", "\n", "\x0b", "\x0c", "\r", " ", "\x85", "\xa0", "\u1680", "\u2000", "\u2001", "\u2002",
    "\u2003", "\u2004", "\u2005", "\u2006", "\u2007", "\u2008", "\u2009", "\u200a", "\u2028", "\u2029",
    "\u202f", "\u205f", "\u3000"].map lit

theorem spaceRunes_ne_nil : ∀ r ∈ spaceRunes, r ≠ [] := by decide

/-- `strings.TrimLeftFunc(s, unicode.IsSpace)`; a byte that starts no valid encoding is not space. -/
def trimLeftSpace (s : GoString) : GoString :=
  match _found : spaceRunes.find? (·.isPrefixOf s) with
  | some r => trimLeftSpace (s.drop r.length)
  | none => s
termination_by s.length
decreasing_by
  have hit : r.isPrefixOf s = true := List.find?_some (p := fun x : GoString => x.isPrefixOf s) _found
  have short := (List.isPrefixOf_iff_prefix.mp hit).length_le
  have := List.length_pos.mpr (spaceRunes_ne_nil r (List.mem_of_find?_eq_some _found))
  simp only [List.length_drop]
  omega

/-- `strings.TrimRightFunc(s, unicode.IsSpace)`. -/
def trimRightSpace (s : GoString) : GoString :=
  match _found : spaceRunes.find? (·.isSuffixOf s) with
  | some r => trimRightSpace (s.take (s.length - r.length))
  | none => s
termination_by s.length
decreasing_by
  have hit : r.isSuffixOf s = true := List.find?_some (p := fun x : GoString => x.isSuffixOf s) _found
  have short := (List.isSuffixOf_iff_suffix.mp hit).length_le
  have := List.length_pos.mpr (spaceRunes_ne_nil r (List.mem_of_find?_eq_some _found))
  simp only [List.length_take]
  omega

def trimSpace (s : GoString) : GoString := trimRightSpace (trimLeftSpace s)

end Strings

/-- The fields of `tar.Header` that `createTarball` sets. -/
structure TarHeader where
  name : GoString
  mode : Nat
  size : Nat
  typeflag : UInt8
  modTime : Int
  deriving DecidableEq, Repr

/-- A file of the archive: the header `tar.Writer.WriteHeader` is given, and the bytes after it. -/
structure TarEntry where
  header : TarHeader
  content : GoString
  deriving DecidableEq, Repr

def typeReg : UInt8 := ch '0'

/-- `outputObserver.createTarball`, with the daemon as its `shouldShipOracle`; `writeHeader` is the
check `tar.Writer.WriteHeader` makes. -/
def createTarball (dc : DaemonConf) (writeHeader : TarHeader → Option Err) :
    List CredhubCert → Except Err (List TarEntry)
  | [] => .ok []
  | cert :: certs =>
    let hn := hostFromPath cert.path
    if !dc.shipToProxy hn then createTarball dc writeHeader certs
    else if Strings.trimSpace cert.certificate = [] then createTarball dc writeHeader certs
    else
      let certBytes := (lit "\n").intercalate
        [Strings.trimSpace cert.privateKey, Strings.trimSpace cert.certificate, Strings.trimSpace cert.ca, []]
      let header : TarHeader := ⟨encodeToString hn ++ lit ".crt", 0o600, certBytes.length, typeReg, cert.dateCreated⟩
      match writeHeader header with
      | some e => .error e
      | none => (createTarball dc writeHeader certs).map (⟨header, certBytes⟩ :: ·)

/-- The records the archive holds: not the daemon's own hostname, certificate not blank. -/
def shipped (dc : DaemonConf) (certs : List CredhubCert) : List CredhubCert :=
  certs.filter fun r => dc.shipToProxy (hostFromPath r.path) && Strings.trimSpace r.certificate != []

/-- The file of a shipped record: named by the hex of its hostname, holding its trimmed key,
certificate and CA. -/
def certFile (r : CredhubCert) : TarEntry :=
  let content := Strings.trimSpace r.privateKey ++ lit "\n" ++ Strings.trimSpace r.certificate ++ lit "\n" ++
    Strings.trimSpace r.ca ++ lit "\n"
  ⟨⟨encodeToString (hostFromPath r.path) ++ lit ".crt", 0o600, content.length, typeReg, r.dateCreated⟩, content⟩

theorem certFile_eq (cert : CredhubCert) :
    certFile cert = ⟨⟨encodeToString (hostFromPath cert.path) ++ lit ".crt", 0o600,
      ((lit "\n").intercalate [Strings.trimSpace cert.privateKey, Strings.trimSpace cert.certificate,
        Strings.trimSpace cert.ca, []]).length, typeReg, cert.dateCreated⟩,
      (lit "\n").intercalate [Strings.trimSpace cert.privateKey, Strings.trimSpace cert.certificate,
        Strings.trimSpace cert.ca, []]⟩ := by
  simp [certFile, List.intercalate]

theorem createTarball_cons_ships {dc : DaemonConf} {writeHeader : TarHeader → Option Err} {cert : CredhubCert}
    (certs : List CredhubCert)
    (ships : dc.shipToProxy (hostFromPath cert.path) = true ∧ Strings.trimSpace cert.certificate ≠ []) :
    createTarball dc writeHeader (cert :: certs) =
      match writeHeader (certFile cert).header with
      | some e => .error e
      | none => (createTarball dc writeHeader certs).map (certFile cert :: ·) := by
  rw [createTarball, if_neg (by simp [ships.1]), if_neg ships.2, certFile_eq]

theorem createTarball_cons_skips {dc : DaemonConf} {writeHeader : TarHeader → Option Err} {cert : CredhubCert}
    (certs : List CredhubCert)
    (skips : ¬ (dc.shipToProxy (hostFromPath cert.path) = true ∧ Strings.trimSpace cert.certificate ≠ [])) :
    createTarball dc writeHeader (cert :: certs) = createTarball dc writeHeader certs := by
  rw [createTarball]
  by_cases own : dc.shipToProxy (hostFromPath cert.path) = true
  · rw [if_neg (by simp [own]), if_pos (by simpa [own] using skips)]
  · rw [if_pos (by simpa using own)]

/-- `createTarball` succeeds exactly when the tar writer takes every shipped record's header. -/
theorem createTarball_eq_ok {dc : DaemonConf} {writeHeader : TarHeader → Option Err} {certs : List CredhubCert}
    {entries : List TarEntry} :
    createTarball dc writeHeader certs = .ok entries ↔
      (∀ r ∈ shipped dc certs, writeHeader (certFile r).header = none) ∧ entries = (shipped dc certs).map certFile := by
  induction certs generalizing entries with
  | nil => simp [createTarball, shipped, eq_comm]
  | cons cert certs ih =>
    by_cases ships : dc.shipToProxy (hostFromPath cert.path) = true ∧ Strings.trimSpace cert.certificate ≠ []
    · have kept : shipped dc (cert :: certs) = cert :: shipped dc certs := by simp [shipped, ships]
      rw [kept, createTarball_cons_ships certs ships]
      cases written : writeHeader (certFile cert).header with
      | some e => simp [written]
      | none =>
        have mapped : ∀ x : Except Err (List TarEntry), x.map (certFile cert :: ·) = .ok entries ↔
            ∃ tail, x = .ok tail ∧ entries = certFile cert :: tail := by
          intro x
          cases x <;> simp [Except.map, eq_comm]
        simp [written, mapped, ih, and_assoc]
    · have dropped : shipped dc (cert :: certs) = shipped dc certs := by
        simp only [shipped, List.filter_cons, Bool.and_eq_true, bne_iff_ne, ne_eq]
        rw [if_neg ships]
      rw [dropped, ← ih, createTarball_cons_skips certs ships]

theorem encodeToString_injective : Function.Injective encodeToString := fun a b same => by
  simpa using congrArg decodeString same

/-- The archive holds one regular file per shipped record, in order, named by the hex of its
hostname with its trimmed key, certificate and CA; the daemon's own record is never shipped. -/
theorem tarball_ships_issued_records (dc : DaemonConf) (writeHeader : TarHeader → Option Err)
    (certs : List CredhubCert) :
    (∀ entries, createTarball dc writeHeader certs = .ok entries ↔
      (∀ r ∈ shipped dc certs, writeHeader (certFile r).header = none) ∧ entries = (shipped dc certs).map certFile) ∧
    (∀ r ∈ certs, r.path = pathFromHost dc.ourHN → r ∉ shipped dc certs) ∧
    ∀ entries, createTarball dc writeHeader certs = .ok entries →
      ∀ e ∈ entries, e.header.name ≠ encodeToString dc.ourHN ++ lit ".crt" := by
  have foreign : ∀ r ∈ shipped dc certs, hostFromPath r.path ≠ dc.ourHN := fun r mem => by
    have kept := (List.mem_filter.mp mem).2
    simp only [Bool.and_eq_true, DaemonConf.shipToProxy, bne_iff_ne] at kept
    exact kept.1
  refine ⟨fun _ => createTarball_eq_ok, fun r _ own mem => foreign r mem (by rw [own, hostFromPath_pathFromHost]),
    fun entries built e mem same => ?_⟩
  obtain ⟨r, kept, rfl⟩ := List.mem_map.mp ((createTarball_eq_ok.mp built).2 ▸ mem)
  exact foreign r kept (encodeToString_injective (List.append_cancel_right same))

/-- What `bucket.Put` keeps between calls: its AWS session, and the last tarball it uploaded. -/
structure Bucket where
  session : Bool
  lastSuccessfulWritten : List UInt8
  deriving DecidableEq, Repr

/-- What AWS answers one `Put`: `session.NewSession`, if called, and the upload. -/
structure PutAnswer where
  newSession : Option Err
  upload : Option Err
  deriving DecidableEq, Repr

inductive PutOutcome where
  | unchanged
  | sessionFailed (e : Err)
  | uploadFailed (e : Err)
  | uploaded
  deriving DecidableEq, Repr

def PutOutcome.error : PutOutcome → Option Err
  | .sessionFailed e | .uploadFailed e => some e
  | .unchanged | .uploaded => none

/-- `bucket.Put`: nothing is done when the tarball equals the last one uploaded, byte for byte. -/
def Bucket.put (b : Bucket) (answer : PutAnswer) (data : List UInt8) : PutOutcome × Bucket :=
  if data = b.lastSuccessfulWritten then (.unchanged, b)
  else
    match if b.session then none else answer.newSession with
    | some e => (.sessionFailed e, b)
    | none =>
      match answer.upload with
      | some e => (.uploadFailed e, { b with session := true })
      | none => (.uploaded, ⟨true, data⟩)

/-- The loop of `CertsAreUpdated` over its buckets from bucket `i`; the first error ends it. -/
def putEach (answer : Nat → PutAnswer) (data : List UInt8) (i : Nat) :
    List Bucket → Option Err × List PutOutcome × List Bucket
  | [] => (none, [], [])
  | b :: rest =>
    match (b.put (answer i) data).1.error with
    | some e => (some e, [(b.put (answer i) data).1], (b.put (answer i) data).2 :: rest)
    | none =>
      ((putEach answer data (i + 1) rest).1, (b.put (answer i) data).1 :: (putEach answer data (i + 1) rest).2.1,
        (b.put (answer i) data).2 :: (putEach answer data (i + 1) rest).2.2)

/-- `outputObserver.CertsAreUpdated`: the archive is built and encoded, then handed to each bucket. -/
def certsAreUpdated (dc : DaemonConf) (writeHeader : TarHeader → Option Err) (archive : List TarEntry → List UInt8)
    (answer : Nat → PutAnswer) (buckets : List Bucket) (certs : List CredhubCert) :
    Option Err × List PutOutcome × List Bucket :=
  match createTarball dc writeHeader certs with
  | .error e => (some e, [], buckets)
  | .ok entries => putEach answer (archive entries) 0 buckets

/-- `CertsAreUpdated` handed the tarballs of `deliveries` one after another, with a log of the
outcomes of each one's `Put`s. -/
def deliverAll : List Bucket → List (List UInt8 × (Nat → PutAnswer)) →
    List Bucket × List (List UInt8 × List PutOutcome)
  | buckets, [] => (buckets, [])
  | buckets, (data, answer) :: rest =>
    ((deliverAll (putEach answer data 0 buckets).2.2 rest).1,
      (data, (putEach answer data 0 buckets).2.1) :: (deliverAll (putEach answer data 0 buckets).2.2 rest).2)

def uploadsOf (j : Nat) (log : List (List UInt8 × List PutOutcome)) : List (List UInt8) :=
  log.filterMap fun entry => if entry.2[j]? = some .uploaded then some entry.1 else none

section Buckets

variable {answer : Nat → PutAnswer} {data : List UInt8}

theorem put_unchanged_iff (b : Bucket) (a : PutAnswer) (data : List UInt8) :
    (b.put a data).1 = .unchanged ↔ data = b.lastSuccessfulWritten := by
  unfold Bucket.put
  by_cases same : data = b.lastSuccessfulWritten
  · simp [same]
  · simp only [same, if_false, iff_false]
    split
    · nofun
    · split <;> nofun

theorem put_last (b : Bucket) (a : PutAnswer) (data : List UInt8) :
    (b.put a data).2.lastSuccessfulWritten =
      if (b.put a data).1 = .uploaded then data else b.lastSuccessfulWritten := by
  unfold Bucket.put
  by_cases same : data = b.lastSuccessfulWritten
  · simp [same]
  · simp only [same, if_false]
    split
    · simp
    · split <;> simp

theorem putEach_cons (i : Nat) (b : Bucket) (rest : List Bucket) :
    putEach answer data i (b :: rest) =
      match (b.put (answer i) data).1.error with
      | some e => (some e, [(b.put (answer i) data).1], (b.put (answer i) data).2 :: rest)
      | none =>
        ((putEach answer data (i + 1) rest).1, (b.put (answer i) data).1 :: (putEach answer data (i + 1) rest).2.1,
          (b.put (answer i) data).2 :: (putEach answer data (i + 1) rest).2.2) := rfl

theorem putEach_outcome (i : Nat) (bs : List Bucket) {j : Nat} {o : PutOutcome}
    (made : (putEach answer data i bs).2.1[j]? = some o) :
    ∃ b, bs[j]? = some b ∧ o = (b.put (answer (i + j)) data).1 := by
  induction bs generalizing i j with
  | nil => cases made
  | cons b rest ih =>
    rw [putEach_cons] at made
    cases j with
    | zero => split at made <;> exact ⟨b, List.getElem?_cons_zero, by simpa [eq_comm] using made⟩
    | succ k =>
      split at made
      · simp at made
      · obtain ⟨b', found, rfl⟩ := ih (i + 1) (by simpa using made)
        exact ⟨b', by simpa using found, by rw [Nat.add_right_comm, Nat.add_assoc]⟩

theorem putEach_last (i : Nat) (bs : List Bucket) (j : Nat) :
    (putEach answer data i bs).2.2[j]?.map Bucket.lastSuccessfulWritten =
      (bs[j]?.map Bucket.lastSuccessfulWritten).map
        fun x => if (putEach answer data i bs).2.1[j]? = some .uploaded then data else x := by
  induction bs generalizing i j with
  | nil => rfl
  | cons b rest ih =>
    rw [putEach_cons]
    cases j with
    | zero => split <;> simp [put_last]
    | succ k =>
      split
      · simp [Function.comp_def]
      · simpa using ih (i + 1) k

theorem putEach_length (i : Nat) (bs : List Bucket) : (putEach answer data i bs).2.2.length = bs.length := by
  induction bs generalizing i with
  | nil => rfl
  | cons b rest ih =>
    rw [putEach_cons]
    split
    · rfl
    · simp [ih]

theorem putEach_reach (i : Nat) (bs : List Bucket) :
    (putEach answer data i bs).2.1.length ≤ bs.length ∧
    (∀ j o, (putEach answer data i bs).2.1[j]? = some o → j + 1 < (putEach answer data i bs).2.1.length →
      o.error = none) ∧
    ((putEach answer data i bs).2.1.length < bs.length →
      ∃ o, (putEach answer data i bs).2.1.getLast? = some o ∧ o.error.isSome) := by
  induction bs generalizing i with
  | nil => simp [putEach]
  | cons b rest ih =>
    obtain ⟨fits, early, stopped⟩ := ih (i + 1)
    rw [putEach_cons]
    split
    · rename_i e failed
      refine ⟨by simp, fun j o _ later => by simp at later, fun _ => ⟨_, rfl, by simp [failed]⟩⟩
    · rename_i passed
      refine ⟨by simpa using fits, fun j o made later => ?_, fun short => ?_⟩
      · cases j with
        | zero =>
          simp only [List.getElem?_cons_zero, Option.some.injEq] at made
          rwa [← made]
        | succ k => exact early k o (by simpa using made) (by simpa using later)
      · obtain ⟨o, last, failed⟩ := stopped (by simpa using short)
        have : (putEach answer data (i + 1) rest).2.1 ≠ [] := by
          intro empty
          simp [empty] at last
        exact ⟨o, by simp [List.getLast?_cons, this, last], failed⟩

theorem lastUpload_cons (j : Nat) (d : List UInt8) (outcomes : List PutOutcome)
    (log : List (List UInt8 × List PutOutcome)) (x : List UInt8) :
    (uploadsOf j ((d, outcomes) :: log)).getLast?.getD x =
      (uploadsOf j log).getLast?.getD (if outcomes[j]? = some .uploaded then d else x) := by
  have split : uploadsOf j ((d, outcomes) :: log) =
      (if outcomes[j]? = some .uploaded then [d] else []) ++ uploadsOf j log := by
    by_cases up : outcomes[j]? = some .uploaded <;> simp [uploadsOf, up]
  rw [split, List.getLast?_append]
  cases (uploadsOf j log).getLast? <;> split <;> rfl

theorem deliverAll_cons (bs : List Bucket) (d : List UInt8) (a : Nat → PutAnswer)
    (rest : List (List UInt8 × (Nat → PutAnswer))) :
    deliverAll bs ((d, a) :: rest) =
      ((deliverAll (putEach a d 0 bs).2.2 rest).1,
        (d, (putEach a d 0 bs).2.1) :: (deliverAll (putEach a d 0 bs).2.2 rest).2) := rfl

theorem deliverAll_final (bs : List Bucket) (ds : List (List UInt8 × (Nat → PutAnswer))) :
    (deliverAll bs ds).1.length = bs.length ∧
    ∀ j, (deliverAll bs ds).1[j]?.map Bucket.lastSuccessfulWritten =
      (bs[j]?.map Bucket.lastSuccessfulWritten).map fun x => (uploadsOf j (deliverAll bs ds).2).getLast?.getD x := by
  induction ds generalizing bs with
  | nil => simp [deliverAll, uploadsOf, Function.comp_def]
  | cons delivery rest ih =>
    obtain ⟨d, a⟩ := delivery
    obtain ⟨length, last⟩ := ih (putEach a d 0 bs).2.2
    refine ⟨by rw [deliverAll_cons, length, putEach_length], fun j => ?_⟩
    rw [deliverAll_cons, last j, putEach_last, Option.map_map]
    simp only [lastUpload_cons, Function.comp_def]

theorem deliverAll_entry (bs : List Bucket) (ds : List (List UInt8 × (Nat → PutAnswer)))
    {pre post : List (List UInt8 × List PutOutcome)} {data : List UInt8} {outcomes : List PutOutcome}
    (split : (deliverAll bs ds).2 = pre ++ (data, outcomes) :: post) :
    ∃ before a, (data, a) ∈ ds ∧ outcomes = (putEach a data 0 before).2.1 ∧ before.length = bs.length ∧
      ∀ j, before[j]?.map Bucket.lastSuccessfulWritten =
        (bs[j]?.map Bucket.lastSuccessfulWritten).map fun x => (uploadsOf j pre).getLast?.getD x := by
  induction ds generalizing bs pre with
  | nil => cases pre <;> cases split
  | cons delivery rest ih =>
    obtain ⟨d, a⟩ := delivery
    rw [deliverAll_cons] at split
    cases pre with
    | nil =>
      obtain ⟨⟨rfl, rfl⟩, -⟩ := List.cons.inj split
      exact ⟨bs, a, List.mem_cons_self _ _, rfl, rfl, fun j => by simp [uploadsOf, Function.comp_def]⟩
    | cons entry pre =>
      obtain ⟨rfl, later⟩ := List.cons.inj split
      obtain ⟨before, a', mem, made, length, last⟩ := ih (putEach a d 0 bs).2.2 later
      refine ⟨before, a', List.mem_cons_of_mem _ mem, made, by rw [length, putEach_length], fun j => ?_⟩
      rw [last j, putEach_last, Option.map_map]
      simp only [lastUpload_cons, Function.comp_def]

theorem last_of_fresh {bs : List Bucket} (fresh : ∀ b ∈ bs, b.lastSuccessfulWritten = []) {j : Nat}
    {f : List UInt8 → List UInt8} {y : List UInt8} (found : (bs[j]?.map Bucket.lastSuccessfulWritten).map f = some y) :
    y = f [] := by
  cases listed : bs[j]? with
  | none => simp [listed] at found
  | some b =>
    simp only [listed, Option.map_some', Option.some.injEq, fresh b (List.getElem?_mem listed)] at found
    exact found.symm

theorem eq_lastUpload_iff {uploads : List (List UInt8)} {data : List UInt8} (nonempty : data ≠ []) :
    data = uploads.getLast?.getD [] ↔ uploads.getLast? = some data := by
  cases uploads.getLast? <;> simp [nonempty, eq_comm]

theorem put_accepted {b : Bucket} {a : PutAnswer} (accepted : (b.put a data).1.error = none) :
    (b.put a data).2.lastSuccessfulWritten = data := by
  rw [put_last]
  cases outcome : (b.put a data).1 with
  | unchanged => exact ((put_unchanged_iff b a data).mp outcome).symm
  | uploaded => rfl
  | _ => rw [outcome] at accepted; cases accepted

theorem putEach_accepted (i : Nat) (bs : List Bucket) (accepted : (putEach answer data i bs).1 = none) :
    ∀ b ∈ (putEach answer data i bs).2.2, b.lastSuccessfulWritten = data := by
  induction bs generalizing i with
  | nil => nofun
  | cons b rest ih =>
    rw [putEach_cons] at accepted ⊢
    split at accepted <;> rename_i put
    · cases accepted
    · rintro b' (_ | ⟨_, kept⟩)
      · exact put_accepted put
      · exact ih (i + 1) accepted b' kept

/-- An output observer that accepted `certs` leaves every bucket holding their tarball. -/
theorem certsAreUpdated_accepted {dc : DaemonConf} {writeHeader : TarHeader → Option Err}
    {archive : List TarEntry → List UInt8} {bs : List Bucket} {certs : List CredhubCert}
    (accepted : (certsAreUpdated dc writeHeader archive answer bs certs).1 = none) :
    ∃ entries, createTarball dc writeHeader certs = .ok entries ∧
      ∀ b ∈ (certsAreUpdated dc writeHeader archive answer bs certs).2.2, b.lastSuccessfulWritten = archive entries := by
  unfold certsAreUpdated at accepted ⊢
  split at accepted <;> rename_i made
  · cases accepted
  · exact ⟨_, made, putEach_accepted 0 bs accepted⟩

end Buckets

/-- Over every run from fresh buckets, each delivery calls the buckets in order up to the first failing
`Put`; a bucket uploads exactly when the tarball differs from its last successful upload, which
it keeps as `lastSuccessfulWritten`. -/
theorem s3_put_dedup (buckets : List Bucket) (fresh : ∀ b ∈ buckets, b.lastSuccessfulWritten = [])
    (deliveries : List (List UInt8 × (Nat → PutAnswer))) (nonempty : ∀ d ∈ deliveries, d.1 ≠ []) :
    (∀ pre data outcomes post, (deliverAll buckets deliveries).2 = pre ++ (data, outcomes) :: post →
      outcomes.length ≤ buckets.length ∧
      (∀ j o, outcomes[j]? = some o → j + 1 < outcomes.length → o.error = none) ∧
      (outcomes.length < buckets.length → ∃ o, outcomes.getLast? = some o ∧ o.error.isSome) ∧
      ∀ j o, outcomes[j]? = some o → (o = .unchanged ↔ (uploadsOf j pre).getLast? = some data)) ∧
    ∀ j b, (deliverAll buckets deliveries).1[j]? = some b →
      b.lastSuccessfulWritten = (uploadsOf j (deliverAll buckets deliveries).2).getLast?.getD [] := by
  refine ⟨fun pre data outcomes post split => ?_, fun j b found => ?_⟩
  · obtain ⟨before, a, mem, rfl, length, last⟩ := deliverAll_entry buckets deliveries split
    obtain ⟨fits, early, stopped⟩ := @putEach_reach a data 0 before
    rw [length] at fits stopped
    refine ⟨fits, early, stopped, fun j o made => ?_⟩
    obtain ⟨b, held, rfl⟩ := putEach_outcome 0 before made
    have was := last_of_fresh fresh ((last j).symm.trans (by rw [held]; rfl))
    rw [put_unchanged_iff, was, eq_lastUpload_iff (nonempty _ mem)]
  · have := (deliverAll_final buckets deliveries).2 j
    rw [found] at this
    exact last_of_fresh fresh this.symm

/-- The same tarball delivered twice, AWS answering every call. -/
def sameTarballTwice : List (List UInt8 × (Nat → PutAnswer)) :=
  [([1], fun _ => ⟨none, none⟩), ([1], fun _ => ⟨none, none⟩)]

/-- One bucket handed the same tarball twice holds it as its last upload. -/
theorem same_tarball_uploaded_once :
    (∀ b ∈ [(⟨false, []⟩ : Bucket)], b.lastSuccessfulWritten = []) ∧ (∀ d ∈ sameTarballTwice, d.1 ≠ []) ∧
    ∀ j b, (deliverAll [⟨false, []⟩] sameTarballTwice).1[j]? = some b →
      b.lastSuccessfulWritten = (uploadsOf j (deliverAll [⟨false, []⟩] sameTarballTwice).2).getLast?.getD [] :=
  ⟨by decide, by decide, (s3_put_dedup _ (by decide) _ (by decide)).2⟩

/-- A failed upload to the first bucket leaves the second uncalled, though its tarball is new to it. -/
theorem failed_bucket_skips_next :
    putEach (fun i => if i = 0 then ⟨none, some (.external (lit "AccessDenied"))⟩ else ⟨none, none⟩) [1] 0
      [⟨false, []⟩, ⟨false, []⟩] =
      (some (.external (lit "AccessDenied")), [.uploadFailed (.external (lit "AccessDenied"))],
        [⟨true, []⟩, ⟨false, []⟩]) := by
  decide

end LeResponder

