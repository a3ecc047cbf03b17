import LeResponder.System

/-! What the observers hold: whenever the publish loop waits at its `select`, the last fan-out
delivered the store's content unless a fan-out or a signal is still to come. -/
namespace LeResponder

/-- A fan-out starts within 30 s with no further signal. -/
def Loop.Due (l : Loop) : Prop :=
  l.timer.buffered.isSome ∨ ∃ d, l.timer.deadline = some d ∧ d ≤ l.now + debounce

/-- A goroutine wrote inside `getCertAndSave` and has its send still to make. -/
def World.Owes (w : World) : Prop :=
  (∃ b certs hostname todo retErr, w.scan = .renewing b certs hostname todo retErr (some .signal)) ∨
    ∃ (i : Nat) (success : GoString), w.admins[i]? = some (AdminPc.issuing success .signal)

/-- A write since the last fan-out started is accounted for by a signal, or was an unsignalled
admin write. -/
def World.Owed (w : World) : Prop := 0 < w.loop.queued ∨ w.Owes ∨ w.unsignalled = true

/-- What the observers hold, by where the publish loop stands. -/
def World.Fresh (w : World) : Prop :=
  match w.loop.pc with
  | .select => w.published = some w.store.content ∨ w.loop.Due ∨ w.Owed
  | .fanOut => w.reading.Consistent w.store ∨ w.Owed
  | .retry | .drainBlocked => True

theorem Loop.onSignal_due (l : Loop) : l.onSignal.pc = .drainBlocked ∨ l.onSignal.pc = l.pc ∧ l.onSignal.Due := by
  unfold Loop.onSignal Timer.stop
  dsimp only
  split_ifs
  · exact .inr ⟨rfl, .inr ⟨_, rfl, le_refl _⟩⟩
  · exact .inr ⟨rfl, .inr ⟨_, rfl, le_refl _⟩⟩
  · exact .inl rfl

/-- A move beside the publish loop's own, which keeps what is due and what is owed. -/
structure OffLoop (w w' : World) : Prop where
  pc : w'.loop.pc = w.loop.pc
  published : w'.published = w.published
  reading : w'.reading = w.reading
  due : w.loop.Due → w'.loop.Due
  owed : w.Owed → w'.Owed
  written : w'.store = w.store ∨ w'.Owed

theorem OffLoop.fresh {w w' : World} (off : OffLoop w w') (fresh : w.Fresh) : w'.Fresh := by
  unfold World.Fresh at fresh ⊢
  rw [off.pc]
  cases stands : w.loop.pc <;> simp only [stands] at fresh ⊢
  · rcases fresh with current | due | owed
    · rcases off.written with same | owed
      · exact .inl (by rw [off.published, same, current])
      · exact .inr (.inr owed)
    · exact .inr (.inl (off.due due))
    · exact .inr (.inr (off.owed owed))
  · rcases fresh with consistent | owed
    · rcases off.written with same | owed
      · exact .inl (by rw [off.reading, same]; exact consistent)
      · exact .inr owed
    · exact .inr (off.owed owed)

section Steps

variable {dc : DaemonConf} {lib : CertLib}

theorem World.owes_set {w : World} {i : Nat} {c : Choice} {pc pc' : AdminPc} {eff : Effect} (u : Bool)
    (found : w.admins[i]? = some pc) (stepped : pc.next dc lib w.store c = some (pc', eff)) (owes : w.Owes) :
    eff = .send ∨ World.Owes { w with admins := w.admins.set i pc', unsignalled := u } := by
  rcases owes with scan | ⟨j, success, owing⟩
  · exact Or.inr (Or.inl scan)
  · by_cases same : i = j
    · subst same
      rw [found] at owing
      cases owing
      rw [AdminPc.next_issuing_signal] at stepped
      exact Or.inl (Prod.mk.inj (Option.some.inj stepped)).2.symm
    · exact Or.inr (Or.inr ⟨j, success, by rw [List.getElem?_set_ne same]; exact owing⟩)

theorem World.scan_offLoop {w w' : World} {c : Choice} {pc : ScanPc} {eff : Effect}
    (stepped : w.scan.next dc lib w.loop.now w.store c = some (pc, eff))
    (applied : { w with scan := pc }.apply eff = some w') : OffLoop w w' := by
  cases eff with
  | none =>
    cases applied
    refine ⟨rfl, rfl, rfl, id, ?_, .inl rfl⟩
    rintro (queued | (⟨b, certs, hostname, todo, retErr, owing⟩ | requested) | unsignalled)
    · exact Or.inl queued
    · rw [owing, ScanPc.next_signal] at stepped
      cases stepped
    · exact Or.inr (Or.inl (Or.inr requested))
    · exact Or.inr (Or.inr unsignalled)
  | saved path chc =>
    have owed : w'.Owed := by
      cases applied
      obtain ⟨b, certs, hostname, todo, retErr, -, -, -, rfl⟩ := ScanPc.next_saved stepped
      exact Or.inr (Or.inl (Or.inl ⟨b, certs, hostname, todo, retErr, rfl⟩))
    cases applied
    exact ⟨rfl, rfl, rfl, id, fun _ => owed, .inr owed⟩
  | deleted path => exact absurd stepped ScanPc.next_not_deleted
  | send =>
    simp only [World.apply] at applied
    split at applied <;> cases applied
    exact ⟨rfl, rfl, rfl, id, fun _ => Or.inl (Nat.succ_pos _), .inl rfl⟩

theorem World.admin_offLoop {w w' : World} {i : Nat} {c : Choice} {pc pc' : AdminPc} {eff : Effect}
    (found : w.admins[i]? = some pc) (stepped : pc.next dc lib w.store c = some (pc', eff))
    (applied : World.apply
      { w with admins := w.admins.set i pc', unsignalled := w.unsignalled || (!pc.inGetCertAndSave && eff.writes) } eff =
      some w') : OffLoop w w' := by
  have written : eff.writes = true → w'.Owed := by
    intro writes
    cases eff <;> cases writes <;> cases applied
    all_goals
      cases inside : pc.inGetCertAndSave
      · exact Or.inr (Or.inr (by simp [inside, Effect.writes]))
      · obtain ⟨success, rfl⟩ := AdminPc.next_writes_signal stepped rfl inside
        exact Or.inr (Or.inl (Or.inr ⟨i, success, List.getElem?_set_self (List.getElem?_eq_some.mp found).1⟩))
  cases eff with
  | none =>
    cases applied
    refine ⟨rfl, rfl, rfl, id, ?_, .inl rfl⟩
    rintro (queued | owes | unsignalled)
    · exact Or.inl queued
    · rcases World.owes_set _ found stepped owes with sent | owes
      · cases sent
      · exact Or.inr (Or.inl owes)
    · exact Or.inr (Or.inr (by simp [unsignalled]))
  | saved path chc | deleted path =>
    have owed := written rfl
    cases applied
    exact ⟨rfl, rfl, rfl, id, fun _ => owed, .inr owed⟩
  | send =>
    simp only [World.apply] at applied
    split at applied <;> cases applied
    exact ⟨rfl, rfl, rfl, id, fun _ => Or.inl (Nat.succ_pos _), .inl rfl⟩

theorem World.request_offLoop (w : World) (req : UpdateRequest) :
    OffLoop w { w with admins := w.admins ++ [.start req] } := by
  refine ⟨rfl, rfl, rfl, id, ?_, .inl rfl⟩
  rintro (queued | (scan | ⟨j, success, owing⟩) | unsignalled)
  · exact Or.inl queued
  · exact Or.inr (Or.inl (Or.inl scan))
  · have listed := (List.getElem?_eq_some.mp owing).1
    exact Or.inr (Or.inl (Or.inr ⟨j, success, by rw [List.getElem?_append_left listed]; exact owing⟩))
  · exact Or.inr (Or.inr unsignalled)

theorem World.fanOut_fresh {w : World} (c : Choice) (fanning : w.loop.pc = .fanOut) (fresh : w.Fresh) :
    (w.fanOut c).Fresh := by
  simp only [World.Fresh, fanning] at fresh
  unfold World.fanOut
  split
  · rename_i pc read
    simp only [World.Fresh, fanning]
    rcases fresh with consistent | owed
    · exact .inl (FetchPc.next_consistent consistent read)
    · exact .inr owed
  · rename_i certs read
    split
    · trivial
    · simp only [World.Fresh]
      rcases fresh with consistent | owed
      · exact .inl (by rw [FetchPc.next_content consistent read])
      · exact .inr (.inr owed)
  · trivial

theorem World.Fresh.init (s : Store) : (World.init s).Fresh :=
  Or.inr (Or.inl (Or.inr ⟨initialDelay, rfl, (by decide : initialDelay ≤ 0 + debounce)⟩))

theorem World.Fresh.next {w w' : World} {m : Move} (fresh : w.Fresh) (moved : w.next dc lib m = some w') :
    w'.Fresh := by
  cases (World.next_eq_some.mp moved).2 with
  | clock t later =>
    apply OffLoop.fresh _ fresh
    refine ⟨rfl, rfl, rfl, ?_, id, .inl rfl⟩
    rintro (buffered | ⟨d, armed, soon⟩)
    · exact .inl buffered
    · exact .inr ⟨d, armed, by simp only at soon ⊢; omega⟩
  | fire d armed _ =>
    apply OffLoop.fresh _ fresh
    refine ⟨rfl, rfl, rfl, fun _ => Or.inl ?_, id, .inl rfl⟩
    simp only [Timer.fire, armed]
    cases w.loop.timer.buffered <;> rfl
  | receive waiting _ =>
    simp only [World.Fresh]
    rcases Loop.onSignal_due w.loop with blocked | ⟨same, due⟩
    · rw [blocked]; trivial
    · rw [same, waiting]
      exact .inr (.inl due)
  | expire => exact .inl trivial
  | fanOut c fanning => exact World.fanOut_fresh c fanning fresh
  | retry => exact .inr (.inr (.inl (Nat.succ_pos _)))
  | scan _ c pc eff stepped applied => exact (World.scan_offLoop stepped applied).fresh fresh
  | request req => exact (World.request_offLoop w req).fresh fresh
  | admin _ i c pc pc' eff found stepped applied => exact (World.admin_offLoop found stepped applied).fresh fresh

theorem Reachable.fresh {w : World} (reached : Reachable dc lib w) : w.Fresh := by
  induction reached with
  | init s => exact World.Fresh.init s
  | step m _ moved ih => exact ih.next moved

/-- Whenever the publish loop waits at its `select`, the observers hold the store's content, or a
publish is pending, or a write still owes its signal, or an admin write sent none. -/
theorem Reachable.published_current {w : World} (reached : Reachable dc lib w) (waiting : w.loop.pc = .select) :
    w.published = some w.store.content ∨ (0 < w.loop.queued ∨ w.loop.Due) ∨ w.Owes ∨ w.unsignalled = true := by
  have fresh := reached.fresh
  simp only [World.Fresh, waiting] at fresh
  rcases fresh with current | due | queued | owes | unsignalled
  · exact .inl current
  · exact .inr (.inl (.inr due))
  · exact .inr (.inl (.inl queued))
  · exact .inr (.inr (.inl owes))
  · exact .inr (.inr (.inr unsignalled))

end Steps

/-- After the first fan-out the daemon waits at its `select` with the store published. -/
theorem first_fan_out_published_current :
    ∃ w, Reachable exampleConf exampleLib w ∧ w.loop.pc = .select ∧ w.published.isSome ∧
      (w.published = some w.store.content ∨ (0 < w.loop.queued ∨ w.loop.Due) ∨ w.Owes ∨ w.unsignalled = true) := by
  obtain ⟨w, reached, waiting, published⟩ := reach_of_run exampleConf exampleLib (exampleStore "x")
    ([.clock initialDelay, .fire, .expire] ++ List.replicate 5 (.publish .ok))
    (fun w => w.loop.pc = .select ∧ w.published.isSome) (by decide)
  exact ⟨w, reached, waiting, published, reached.published_current waiting⟩

end LeResponder
