import LeResponder.Daemon

/-! One scan cycle (`periodicScan`) and one fan-out (`updateObservers`) as functions of what
`FetchCerts` answers, each evaluation and observer answering arbitrarily. -/
namespace LeResponder

/-- The hostnames `periodicScan` evaluates: the fixed hosts, then the decoded name of every listed
record that is not one. -/
def scanHosts (dc : DaemonConf) (certs : List CredhubCert) : List GoString :=
  dc.fixedHosts ++ (certs.map fun c => hostFromPath c.path).filter fun hn => !dc.isFixedHost hn

/-- A `for` loop of `periodicScan` from call number `i`: `retErr` keeps the last error. -/
def renewEach (renew : Nat → GoString → Option Err) (i : Nat) : List GoString → Option Err → Option Err
  | [], retErr => retErr
  | h :: rest, retErr => renewEach renew (i + 1) rest ((renew i h).or retErr)

/-- `periodicScan`: the hostnames it evaluates, in order, and the error it returns. -/
def periodicScan (dc : DaemonConf) (fetched : Except Err (List CredhubCert))
    (renew : Nat → GoString → Option Err) : List GoString × Option Err :=
  match fetched with
  | .error e => ([], some e)
  | .ok certs => (scanHosts dc certs, renewEach renew 0 (scanHosts dc certs) none)

/-- What `updateObservers` did: each `CertsAreUpdated` call with its records and error, the error
returned, and the observers' state after. -/
structure FanOut (σ : Type) where
  calls : List (List CredhubCert × Option Err)
  retErr : Option Err
  state : σ

/-- One turn of the loop of `updateObservers`: an error of `ob.CertsAreUpdated(certs)` becomes `retErr`. -/
def FanOut.call {σ : Type} (certs : List CredhubCert) (f : FanOut σ) (ob : σ → List CredhubCert → Option Err × σ) :
    FanOut σ :=
  ⟨f.calls ++ [(certs, (ob f.state certs).1)], (ob f.state certs).1.or f.retErr, (ob f.state certs).2⟩

/-- `updateObservers` on what `FetchCerts` answered. -/
def updateObservers {σ : Type} (fetched : Except Err (List CredhubCert))
    (observers : List (σ → List CredhubCert → Option Err × σ)) (s : σ) : FanOut σ :=
  match fetched with
  | .error e => ⟨[], some e, s⟩
  | .ok certs => observers.foldl (FanOut.call certs) ⟨[], none, s⟩

theorem renewEach_append_singleton (renew : Nat → GoString → Option Err) (i : Nat) (hosts : List GoString)
    (h : GoString) (retErr : Option Err) :
    renewEach renew i (hosts ++ [h]) retErr = (renew (i + hosts.length) h).or (renewEach renew i hosts retErr) := by
  induction hosts generalizing i retErr with
  | nil => rfl
  | cons h' rest ih =>
    rw [List.cons_append, renewEach, renewEach, ih, List.length_cons, Nat.add_right_comm, Nat.add_assoc]

private theorem lt_length_concat {hosts : List GoString} {h : GoString} {j : Nat}
    (hj : j < (hosts ++ [h]).length) : j < hosts.length ∨ j = hosts.length :=
  Nat.lt_succ_iff_lt_or_eq.mp (by simpa using hj)

theorem renewEach_eq_none_iff (renew : Nat → GoString → Option Err) (hosts : List GoString) :
    renewEach renew 0 hosts none = none ↔ ∀ j (hj : j < hosts.length), renew j hosts[j] = none := by
  induction hosts using List.reverseRecOn with
  | nil => simp [renewEach]
  | append_singleton hosts h ih =>
    rw [renewEach_append_singleton, Option.or_eq_none, Nat.zero_add, ih]
    constructor
    · rintro ⟨last, before⟩ j hj
      rcases lt_length_concat hj with lt | rfl
      · rw [List.getElem_append_left lt]; exact before j lt
      · simpa using last
    · intro all
      refine ⟨by simpa using all hosts.length (by simp), fun j hj => ?_⟩
      have := all j (by simp; omega)
      rwa [List.getElem_append_left hj] at this

theorem renewEach_eq_some_iff (renew : Nat → GoString → Option Err) (hosts : List GoString) (e : Err) :
    renewEach renew 0 hosts none = some e ↔
      ∃ j, ∃ hj : j < hosts.length, renew j hosts[j] = some e ∧
        ∀ k (hk : k < hosts.length), j < k → renew k hosts[k] = none := by
  induction hosts using List.reverseRecOn with
  | nil => simp [renewEach]
  | append_singleton hosts h ih =>
    rw [renewEach_append_singleton, Option.or_eq_some, Nat.zero_add, ih]
    constructor
    · rintro (last | ⟨last, j, hj, failed, after⟩)
      · exact ⟨hosts.length, by simp, by simpa using last, fun k hk later => absurd hk (by simp; omega)⟩
      · refine ⟨j, by simp; omega, by rwa [List.getElem_append_left hj], fun k hk later => ?_⟩
        rcases lt_length_concat hk with lt | rfl
        · rw [List.getElem_append_left lt]; exact after k lt later
        · simpa using last
    · rintro ⟨j, hj, failed, after⟩
      rcases lt_length_concat hj with lt | rfl
      · refine .inr ⟨by simpa using after hosts.length (by simp) lt, j, lt,
          by rwa [List.getElem_append_left lt] at failed, fun k hk later => ?_⟩
        have := after k (by simp; omega) later
        rwa [List.getElem_append_left hk] at this
      · exact .inl (by simpa using failed)

theorem scanHosts_eq (dc : DaemonConf) (certs : List CredhubCert) :
    scanHosts dc certs = lit "proxy-bootstrap" :: dc.ourHN ::
      (certs.map fun c => hostFromPath c.path).filter (fun hn => hn != lit "proxy-bootstrap" && hn != dc.ourHN) := by
  have notFixed : ∀ hn, (!dc.isFixedHost hn) = (hn != lit "proxy-bootstrap" && hn != dc.ourHN) := fun hn => by
    rw [Bool.eq_iff_iff]
    simp [← Bool.not_eq_true, DaemonConf.isFixedHost_iff, not_or]
  simp only [scanHosts, notFixed]
  rfl

/-- `periodicScan` evaluates nothing and returns the error when `FetchCerts` fails; otherwise it
evaluates the fixed hosts, then every other listed hostname in order, each once, and returns the
error of the last evaluation that failed. -/
theorem periodicScan_order_and_error (dc : DaemonConf) (renew : Nat → GoString → Option Err) :
    (∀ e, periodicScan dc (.error e) renew = ([], some e)) ∧
    ∀ certs, (periodicScan dc (.ok certs) renew).1 = scanHosts dc certs ∧
      scanHosts dc certs = lit "proxy-bootstrap" :: dc.ourHN ::
        (certs.map fun c => hostFromPath c.path).filter (fun hn => hn != lit "proxy-bootstrap" && hn != dc.ourHN) ∧
      ((periodicScan dc (.ok certs) renew).2 = none ↔
        ∀ i (hi : i < (scanHosts dc certs).length), renew i (scanHosts dc certs)[i] = none) ∧
      ∀ e, (periodicScan dc (.ok certs) renew).2 = some e ↔
        ∃ i, ∃ hi : i < (scanHosts dc certs).length, renew i (scanHosts dc certs)[i] = some e ∧
          ∀ j (hj : j < (scanHosts dc certs).length), i < j → renew j (scanHosts dc certs)[j] = none :=
  ⟨fun _ => rfl, fun _ => ⟨rfl, scanHosts_eq dc _, renewEach_eq_none_iff _ _, renewEach_eq_some_iff _ _⟩⟩

section FanOut

variable {σ : Type} {certs : List CredhubCert}

theorem foldl_call (observers : List (σ → List CredhubCert → Option Err × σ)) (f : FanOut σ) :
    observers.foldl (FanOut.call certs) f =
      ⟨f.calls ++ (observers.foldl (FanOut.call certs) ⟨[], none, f.state⟩).calls,
        (observers.foldl (FanOut.call certs) ⟨[], none, f.state⟩).retErr.or f.retErr,
        (observers.foldl (FanOut.call certs) ⟨[], none, f.state⟩).state⟩ := by
  induction observers generalizing f with
  | nil => simp
  | cons ob rest ih =>
    rw [List.foldl_cons, List.foldl_cons, ih (FanOut.call certs f ob), ih (FanOut.call certs ⟨[], none, f.state⟩ ob)]
    simp [FanOut.call, Option.or_assoc]

theorem updateObservers_cons (ob : σ → List CredhubCert → Option Err × σ) (rest) (s : σ) :
    updateObservers (.ok certs) (ob :: rest) s =
      ⟨(certs, (ob s certs).1) :: (updateObservers (.ok certs) rest (ob s certs).2).calls,
        (updateObservers (.ok certs) rest (ob s certs).2).retErr.or (ob s certs).1,
        (updateObservers (.ok certs) rest (ob s certs).2).state⟩ := by
  rw [updateObservers, List.foldl_cons, foldl_call]
  simp [FanOut.call, updateObservers]

theorem calls_length (observers : List (σ → List CredhubCert → Option Err × σ)) (s : σ) :
    (updateObservers (.ok certs) observers s).calls.length = observers.length := by
  induction observers generalizing s with
  | nil => rfl
  | cons ob rest ih => simp [updateObservers_cons, ih]

theorem calls_map_fst (observers : List (σ → List CredhubCert → Option Err × σ)) (s : σ) :
    (updateObservers (.ok certs) observers s).calls.map Prod.fst = observers.map fun _ => certs := by
  induction observers generalizing s with
  | nil => rfl
  | cons ob rest ih => simp [updateObservers_cons, ih]

theorem calls_getElem? (observers : List (σ → List CredhubCert → Option Err × σ)) (s : σ) {i : Nat}
    (hi : i < observers.length) :
    (updateObservers (.ok certs) observers s).calls[i]? =
      some (certs, (observers[i] (updateObservers (.ok certs) (observers.take i) s).state certs).1) := by
  induction observers generalizing s i with
  | nil => cases hi
  | cons ob rest ih =>
    rw [updateObservers_cons]
    cases i with
    | zero => simp [updateObservers]
    | succ i =>
      rw [List.getElem?_cons_succ, ih _ (by simpa using hi), List.take_succ_cons, updateObservers_cons]
      rfl

theorem retErr_eq (observers : List (σ → List CredhubCert → Option Err × σ)) (s : σ) :
    (updateObservers (.ok certs) observers s).retErr =
      (updateObservers (.ok certs) observers s).calls.reverse.findSome? Prod.snd := by
  induction observers generalizing s with
  | nil => rfl
  | cons ob rest ih =>
    rw [updateObservers_cons]
    simp only [ih, List.reverse_cons, List.findSome?_append]
    cases (ob s certs).1 <;> rfl

theorem retErr_eq_none_iff (observers : List (σ → List CredhubCert → Option Err × σ)) (s : σ) :
    (updateObservers (.ok certs) observers s).retErr = none ↔
      ∀ call ∈ (updateObservers (.ok certs) observers s).calls, call.2 = none := by
  rw [retErr_eq, List.findSome?_eq_none_iff]
  simp only [List.mem_reverse]

end FanOut

theorem loadPath_path {s : Store} {name : GoString} {c : CredhubCert}
    (loaded : loadPath s name = .ok c) : c.path = name := by
  unfold loadPath at loaded
  split at loaded <;> cases loaded
  rfl

theorem loadEach_error {s : Store} {names : List GoString} {name : GoString} {e : Err}
    (listed : name ∈ names) (bad : loadPath s name = .error e) :
    ∃ e', loadEach s names = .error e' := by
  induction names with
  | nil => cases listed
  | cons first rest ih =>
    rcases List.mem_cons.mp listed with rfl | later
    · exact ⟨e, by simp [loadEach, bad]⟩
    · cases hf : loadPath s first with
      | error e' => exact ⟨e', by simp [loadEach, hf]⟩
      | ok c =>
        obtain ⟨e', he⟩ := ih later
        exact ⟨e', by simp [loadEach, hf, he, Except.map]⟩

theorem loadEach_ok {s : Store} {names : List GoString}
    (loads : ∀ name ∈ names, ∃ c, loadPath s name = .ok c) :
    ∃ certs, loadEach s names = .ok certs ∧ certs.map CredhubCert.path = names := by
  induction names with
  | nil => exact ⟨[], rfl, rfl⟩
  | cons first rest ih =>
    obtain ⟨c, hc⟩ := loads first (List.mem_cons_self _ _)
    obtain ⟨certs, hrest, paths⟩ := ih fun name h => loads name (List.mem_cons_of_mem _ h)
    exact ⟨c :: certs, by simp [loadEach, hc, hrest, Except.map],
      by simp [paths, loadPath_path hc]⟩

/-- One credential that does not load stops the cycle: the scan evaluates no hostname and the fan-out
calls no observer. When all load, each observer receives every record. -/
theorem unreadable_record_stops_cycle {σ : Type} (dc : DaemonConf) (s : Store)
    (renew : Nat → GoString → Option Err) (observers : List (σ → List CredhubCert → Option Err × σ)) (st : σ) :
    ((∃ name ∈ s.names, ∃ e, loadPath s name = .error e) →
      ∃ e, periodicScan dc (fetchCerts s) renew = ([], some e) ∧
        updateObservers (fetchCerts s) observers st = ⟨[], some e, st⟩) ∧
    ((∀ name ∈ s.names, ∃ c, loadPath s name = .ok c) →
      ∃ certs, certs.map CredhubCert.path = s.names ∧
        (periodicScan dc (fetchCerts s) renew).1 = scanHosts dc certs ∧
        (updateObservers (fetchCerts s) observers st).calls.map Prod.fst = observers.map fun _ => certs) := by
  constructor
  · rintro ⟨name, listed, e, bad⟩
    obtain ⟨e', failed⟩ := loadEach_error listed bad
    exact ⟨e', by simp [fetchCerts, getCredList, failed, periodicScan, updateObservers]⟩
  · intro loads
    obtain ⟨certs, fetched, paths⟩ := loadEach_ok loads
    refine ⟨certs, paths, by simp [fetchCerts, getCredList, fetched, periodicScan], ?_⟩
    rw [fetchCerts, getCredList, fetched]
    exact calls_map_fst observers st

/-- One undecodable credential: neither fixed host is evaluated and the observers receive nothing. -/
theorem unreadable_record_blocks_fixed_hosts :
    loadPath ⟨[(lit "/certs/61", .unreadable .badData)], by decide⟩ (lit "/certs/61") = .error .badData ∧
      (periodicScan ⟨30, 60, lit "acme", lit "admin.example", [(lit "acme", .acme)]⟩
        (fetchCerts ⟨[(lit "/certs/61", .unreadable .badData)], by decide⟩) fun _ _ => none).1 = [] ∧
      (updateObservers (fetchCerts ⟨[(lit "/certs/61", .unreadable .badData)], by decide⟩)
        [fun (u : Unit) _ => (none, u)] ()).calls = [] :=
  ⟨rfl, by decide, rfl⟩

end LeResponder
