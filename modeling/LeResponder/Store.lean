import LeResponder.Path
import Mathlib.Data.List.Nodup

/-! The records the daemon keeps in CredHub, in its listing order under `/certs`, and the store
operations of `certStore`. -/
namespace LeResponder

/-- The errors of the modelled code: CredHub's two kinds, library and service errors by their text,
and one constructor per `errors.New`/`fmt.Errorf` of the source. -/
inductive Err where
  | notFound
  | comms
  | external (text : GoString)
  | badData
  | challengeNotEmpty
  | noCertInPem
  | invalidCertInPem
  | alreadyExpired
  | noCertSource (cs : GoString)
  | challengeNotSet
  | noSupportedChallenge
  | invalidOrderStatus (status : GoString)
  | alreadyAuthorized
  | noCertsReturned
  | periodNotSet
  | daysBeforeNotSet
  | unknownSourceType
  | noCertSources
  | noPrivateKeyInPem
  | invalidPrivateKeyInPem
  | noCertFoundNoBlock
  | noCertFoundNotCertificate
  | noCertYet
  | noCertFoundInPem
  | adminUrlNotSpecified
  deriving DecidableEq, Repr

/-- `err.Error()`. The `%q` of an order status is rendered for statuses that need no escape. -/
def Err.error : Err → GoString
  | .notFound => lit "credhub: not found"
  | .comms => lit "credhub: communication error"
  | .external text => text
  | .badData => lit "bad data from credhub"
  | .challengeNotEmpty =>
    lit "challenge not empty, we will not try to auto renew, please use console to do manually"
  | .noCertInPem => lit "no cert found in pem, perhaps this cert hasn't been manually issued yet?"
  | .invalidCertInPem => lit "invalid cert found in pem"
  | .alreadyExpired => lit "cert already expired, we won't try to auto-renew. do so manually via console"
  | .noCertSource cs => lit "no cert source found for: " ++ cs
  | .challengeNotSet => lit "challenge not set"
  | .noSupportedChallenge => lit "no supported challenge type found"
  | .invalidOrderStatus status => lit "invalid new order status \"" ++ status ++ lit "\""
  | .alreadyAuthorized => lit "already authorized, no challenge needed"
  | .noCertsReturned => lit "no certs returned"
  | .periodNotSet => lit "period must be specified and non-zero. should be in seconds"
  | .daysBeforeNotSet => lit "days before must be specified and non-zero. should be in days"
  | .unknownSourceType => lit "unknown cert source type"
  | .noCertSources => lit "must specify at least one cert source"
  | .noPrivateKeyInPem => lit "no private key found in pem"
  | .invalidPrivateKeyInPem => lit "invalid private key found in pem for acme"
  | .noCertFoundNoBlock => lit "no cert found (1)"
  | .noCertFoundNotCertificate => lit "no cert found (2)"
  | .noCertYet => lit "we don't have a cert yet"
  | .noCertFoundInPem => lit "no cert found in pem"
  | .adminUrlNotSpecified => lit "admin external url must be specified"

/-- `acme.Challenge`, the fields the daemon reads. -/
structure Challenge where
  type : GoString
  uri : GoString
  token : GoString
  deriving DecidableEq, Repr

/-- `acme.Authorization`. -/
structure Authorization where
  uri : GoString
  challenges : List Challenge
  deriving DecidableEq, Repr

/-- `acme.Order`. -/
structure Order where
  uri : GoString
  status : GoString
  authzURLs : List GoString
  finalizeURL : GoString
  deriving DecidableEq, Repr

/-- `acmeChallenge`: the instructions and handles of a started DNS challenge. -/
structure AcmeChallenge where
  message : GoString
  challenge : Option Challenge
  order : Option Order
  deriving DecidableEq, Repr

/-- `credhubCert`. `path` and `dateCreated` are not serialised: `LoadPath` sets them. -/
structure CredhubCert where
  source : GoString
  type : GoString
  ca : GoString
  certificate : GoString
  privateKey : GoString
  challenge : Option AcmeChallenge
  path : GoString
  dateCreated : Int
  deriving DecidableEq, Repr

/-- The zero `credhubCert` of Go, as `&credhubCert{Source: source}` leaves every other field. -/
def CredhubCert.empty (source : GoString) : CredhubCert :=
  ⟨source, [], [], [], [], none, [], 0⟩

inductive Stored where
  | cert (value : CredhubCert) (created : Int)
  | unreadable (e : Err)
  deriving DecidableEq, Repr

section Listing

variable {β : Type}
def lookupIn : List (GoString × β) → GoString → Option β
  | [], _ => none
  | (k, v) :: rest, q => if q = k then some v else lookupIn rest q

theorem lookupIn_replace (l : List (GoString × β)) (path q : GoString) (v : β) :
    lookupIn (l.map fun e => (e.1, if e.1 = path then v else e.2)) q =
      if q = path ∧ path ∈ l.map Prod.fst then some v else lookupIn l q := by
  induction l with
  | nil => simp [lookupIn]
  | cons e rest ih =>
    obtain ⟨k, b⟩ := e
    by_cases hq : q = k
    · subst hq; by_cases hk : q = path <;> simp [lookupIn, hk]
    · by_cases hk : k = path
      · subst hk; simp [lookupIn, hq, ih]
      · simp only [lookupIn, hq, hk, if_false, ih, List.map_cons, List.mem_cons]
        by_cases hp : q = path
        · subst hp
          have : ¬ q = k := hq
          simp only [true_and, this, false_or]
        · simp [hp]

theorem lookupIn_append_new (l : List (GoString × β)) (path q : GoString) (v : β) (fresh : path ∉ l.map Prod.fst) :
    lookupIn (l ++ [(path, v)]) q = if q = path then some v else lookupIn l q := by
  induction l with
  | nil => simp [lookupIn]
  | cons e rest ih =>
    obtain ⟨k, b⟩ := e
    simp only [List.map_cons, List.mem_cons, not_or] at fresh
    by_cases hq : q = k
    · subst hq; simp [lookupIn, Ne.symm fresh.1]
    · simp [lookupIn, hq, ih fresh.2]

theorem lookupIn_filter_ne (l : List (GoString × β)) (path q : GoString) :
    lookupIn (l.filter fun e => e.1 ≠ path) q = if q = path then none else lookupIn l q := by
  induction l with
  | nil => simp [lookupIn]
  | cons e rest ih =>
    obtain ⟨k, b⟩ := e
    by_cases hk : k = path
    · subst hk
      rw [List.filter_cons_of_neg (by simp), ih]
      by_cases hq : q = k <;> simp [lookupIn, hq]
    · rw [List.filter_cons_of_pos (by simpa using hk)]
      by_cases hq : q = k
      · subst hq; simp [lookupIn, hk]
      · simp only [lookupIn, hq, if_false, ih]

theorem lookupIn_of_mem {l : List (GoString × β)} (unique : (l.map Prod.fst).Nodup) {k : GoString} {v : β}
    (mem : (k, v) ∈ l) : lookupIn l k = some v := by
  induction l with
  | nil => cases mem
  | cons e rest ih =>
    simp only [List.map_cons, List.nodup_cons] at unique
    rcases List.mem_cons.mp mem with rfl | later
    · simp [lookupIn]
    · have other : k ≠ e.1 := fun same => unique.1 (same ▸ List.mem_map_of_mem Prod.fst later)
      simp [lookupIn, other, ih unique.2 later]

end Listing

/-- The credentials under `/certs`; CredHub names are unique. -/
structure Store where
  entries : List (GoString × Stored)
  unique : (entries.map Prod.fst).Nodup

namespace Store

def names (s : Store) : List GoString := s.entries.map Prod.fst

def find? (s : Store) (path : GoString) : Option Stored := lookupIn s.entries path

def empty : Store := ⟨[], List.nodup_nil⟩

/-- A write keeps a name's place in the listing; a new name is listed last. -/
def set (s : Store) (path : GoString) (v : Stored) : Store :=
  if present : path ∈ s.names then
    ⟨s.entries.map (fun e => (e.1, if e.1 = path then v else e.2)), by
      simpa only [List.map_map] using s.unique⟩
  else
    ⟨s.entries ++ [(path, v)], by
      simp only [List.map_append, List.map_cons, List.map_nil]
      exact s.unique.append (List.nodup_singleton _) (List.disjoint_singleton.mpr present)⟩

def erase (s : Store) (path : GoString) : Store :=
  ⟨s.entries.filter (fun e => e.1 ≠ path), (List.filter_sublist s.entries).map Prod.fst |>.nodup s.unique⟩

theorem mem_names_set (s : Store) (path q : GoString) (v : Stored) :
    q ∈ (s.set path v).names ↔ q = path ∨ q ∈ s.names := by
  unfold set names
  split
  · simp only [List.map_map]
    constructor
    · exact .inr
    · rintro (rfl | h) <;> assumption
  · simp [or_comm]

theorem mem_names_erase (s : Store) (path q : GoString) :
    q ∈ (s.erase path).names ↔ q ≠ path ∧ q ∈ s.names := by
  simp only [erase, names, List.mem_map, List.mem_filter, decide_eq_true_eq]
  constructor
  · rintro ⟨e, ⟨mem, ne⟩, rfl⟩; exact ⟨ne, e, mem, rfl⟩
  · rintro ⟨ne, e, mem, rfl⟩; exact ⟨e, ⟨mem, ne⟩, rfl⟩

theorem find?_set (s : Store) (path q : GoString) (v : Stored) :
    (s.set path v).find? q = if q = path then some v else s.find? q := by
  unfold set find?
  split
  · rename_i present
    rw [lookupIn_replace]
    have present : path ∈ s.entries.map Prod.fst := present
    by_cases hq : q = path <;> simp [hq, present]
  · rename_i absent
    exact lookupIn_append_new _ _ _ _ absent

theorem find?_erase (s : Store) (path q : GoString) :
    (s.erase path).find? q = if q = path then none else s.find? q :=
  lookupIn_filter_ne _ _ _

end Store

/-- `certStore.LoadPath`. -/
def loadPath (s : Store) (path : GoString) : Except Err CredhubCert :=
  match s.find? path with
  | none => .error .notFound
  | some (.unreadable e) => .error e
  | some (.cert value created) => .ok { value with path := path, dateCreated := created }

/-- `certStore.SavePath` at CredHub time `now`: a new current version under `path`. -/
def savePath (s : Store) (path : GoString) (chc : CredhubCert) (now : Int) : Store :=
  s.set path (.cert chc now)

/-- `certStore.DeletePath`: CredHub answers not found for a name it does not hold. -/
def deletePath (s : Store) (path : GoString) : Except Err Store :=
  if path ∈ s.names then .ok (s.erase path) else .error .notFound

theorem loadPath_savePath (s : Store) (path : GoString) (chc : CredhubCert) (now : Int) :
    loadPath (savePath s path chc now) path = .ok { chc with path := path, dateCreated := now } := by
  simp [loadPath, savePath, Store.find?_set]

/-- `certStore.getCredList`. -/
def getCredList (s : Store) : List GoString := s.names

/-- The loop of `FetchCerts`: the first name that does not load ends it. -/
def loadEach (s : Store) : List GoString → Except Err (List CredhubCert)
  | [] => .ok []
  | name :: rest => match loadPath s name with
    | .error e => .error e
    | .ok c => (loadEach s rest).map (c :: ·)

/-- `certStore.FetchCerts`. -/
def fetchCerts (s : Store) : Except Err (List CredhubCert) := loadEach s (getCredList s)

theorem loadEach_snoc {s : Store} {done : List GoString} {got : List CredhubCert} {name : GoString}
    {chc : CredhubCert} (loaded : loadEach s done = .ok got) (next : loadPath s name = .ok chc) :
    loadEach s (done ++ [name]) = .ok (got ++ [chc]) := by
  induction done generalizing got with
  | nil => cases loaded; simp [loadEach, next, Except.map]
  | cons n done ih =>
    simp only [loadEach] at loaded ⊢
    split at loaded
    · cases loaded
    · cases rest : loadEach s done with
      | error e => simp [rest, Except.map] at loaded
      | ok got' =>
        simp only [rest, Except.map, Except.ok.injEq] at loaded
        simp [← loaded, ih rest, Except.map]


/-- A one-byte white-space rune of `unicode.IsSpace`. -/
def asciiSpace (b : UInt8) : Bool :=
  b = 0x09 || b = 0x0a || b = 0x0b || b = 0x0c || b = 0x0d || b = 0x20

/-- A three-byte white-space rune of `unicode.IsSpace`. -/
def wideSpace (b c d : UInt8) : Bool :=
  (b = 0xe1 && c = 0x9a && d = 0x80) ||
  (b = 0xe2 && c = 0x80 && ((0x80 ≤ d && d ≤ 0x8a) || d = 0xa8 || d = 0xa9 || d = 0xaf)) ||
  (b = 0xe2 && c = 0x81 && d = 0x9f) || (b = 0xe3 && c = 0x80 && d = 0x80)

/-- `strings.TrimSpace(s) == ""`: read as UTF-8, `s` is white space only. -/
def isBlank : GoString → Bool
  | [] => true
  | b :: rest =>
    if asciiSpace b then isBlank rest
    else match rest with
      | [] => false
      | c :: rest =>
        if b = 0xc2 && (c = 0x85 || c = 0xa0) then isBlank rest
        else match rest with
          | [] => false
          | d :: rest => wideSpace b c d && isBlank rest

/-- What the observers are given of one issued record: its hostname, key, certificate and CA. -/
structure Content where
  hostname : GoString
  privateKey : GoString
  certificate : GoString
  ca : GoString
  deriving DecidableEq, Repr

def contentOf (path : GoString) (c : CredhubCert) : Option Content :=
  if isBlank c.certificate then none else some ⟨hostFromPath path, c.privateKey, c.certificate, c.ca⟩

def certsContent (certs : List CredhubCert) : List Content :=
  certs.filterMap fun c => contentOf c.path c

def entryContent : GoString × Stored → Option Content
  | (path, .cert c _) => contentOf path c
  | (_, .unreadable _) => none

/-- The content of the store: every readable record whose certificate is not blank. -/
def Store.content (s : Store) : List Content := s.entries.filterMap entryContent

theorem loadEach_content (s : Store) {es : List (GoString × Stored)} (held : ∀ e ∈ es, e ∈ s.entries)
    {certs : List CredhubCert} (loaded : loadEach s (es.map Prod.fst) = .ok certs) :
    certsContent certs = es.filterMap entryContent := by
  induction es generalizing certs with
  | nil => cases loaded; rfl
  | cons e es ih =>
    obtain ⟨path, stored⟩ := e
    have found : s.find? path = some stored := lookupIn_of_mem s.unique (held _ (List.mem_cons_self _ _))
    cases stored with
    | unreadable err => simp [loadEach, loadPath, found] at loaded
    | cert c created =>
      simp only [List.map_cons, loadEach, loadPath, found] at loaded
      cases rest : loadEach s (es.map Prod.fst) with
      | error e => simp [rest, Except.map] at loaded
      | ok got =>
        simp only [rest, Except.map, Except.ok.injEq] at loaded
        subst loaded
        simp only [certsContent, List.filterMap_cons] at ih ⊢
        rw [ih (fun e mem => held e (List.mem_cons_of_mem _ mem)) rest]
        rfl

theorem fetchCerts_content {s : Store} {certs : List CredhubCert} (fetched : fetchCerts s = .ok certs) :
    certsContent certs = s.content :=
  loadEach_content s (fun _ mem => mem) fetched

end LeResponder
