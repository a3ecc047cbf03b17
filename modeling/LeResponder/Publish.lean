import Mathlib.Data.List.Basic

/-! The publish loop of `daemonConf.RunForever`, a `select` over `updateRequests` and the timer `t`
in Go 1.14 timer semantics; time is in nanoseconds. -/
namespace LeResponder

def second : Nat := 1000000000

/-- `cap(dc.updateRequests)`, made by `Init`. -/
def capacity : Nat := 1000

/-- `time.NewTimer(time.Second * 5)`. -/
def initialDelay : Nat := 5 * second

/-- `t.Reset(time.Second * 30)`. -/
def debounce : Nat := 30 * second

/-- `t.Reset(time.Hour * 24 * 365)`: the timer is parked after a fan-out. -/
def park : Nat := 24 * 365 * 3600 * second

/-- A `time.Timer`: the instant it fires at while active, and the tick waiting in `t.C`. -/
structure Timer where
  deadline : Option Nat
  buffered : Option Nat
  deriving DecidableEq, Repr

namespace Timer

/-- The runtime's `sendTime`: the timer stops, and its tick goes into `t.C` unless one waits there. -/
def fire (t : Timer) : Timer :=
  match t.deadline with
  | some d => ⟨none, t.buffered <|> some d⟩
  | none => t

/-- `t.Stop()`: whether the timer was active; it is not afterwards. -/
def stop (t : Timer) : Bool × Timer := (t.deadline.isSome, { t with deadline := none })

def reset (t : Timer) (now d : Nat) : Timer := { t with deadline := some (now + d) }

def drain (t : Timer) : Timer := { t with buffered := none }

end Timer

inductive LoopPc where
  | select
  | fanOut
  | retry
  | drainBlocked
  deriving DecidableEq, Repr

structure Loop where
  now : Nat
  queued : Nat
  timer : Timer
  pc : LoopPc
  deriving DecidableEq, Repr

/-- `RunForever` at instant zero, its timer just made. -/
def Loop.init : Loop := ⟨0, 0, ⟨some initialDelay, none⟩, .select⟩

/-- The signal branch: `if !t.Stop() { <-t.C }` then `t.Reset(time.Second * 30)`. -/
def Loop.onSignal (l : Loop) : Loop :=
  let (active, t) := l.timer.stop
  if active then { l with queued := l.queued - 1, timer := t.reset l.now debounce }
  else if t.buffered.isSome then { l with queued := l.queued - 1, timer := t.drain.reset l.now debounce }
  else { l with queued := l.queued - 1, timer := t, pc := .drainBlocked }

/-- The timer branch up to `updateObservers`: the tick is taken and the timer parked. -/
def Loop.onTick (l : Loop) : Loop := { l with timer := l.timer.drain.reset l.now park, pc := .fanOut }

inductive Event where
  | received (instant : Nat)
  | fannedOut (instant : Nat)
  deriving DecidableEq, Repr

def Event.instant : Event → Nat
  | .received t | .fannedOut t => t

/-- The steps of the publish loop and of its surroundings: the clock, the runtime firing the
timer, and sends by other goroutines. -/
inductive LoopStep : Loop → Option Event → Loop → Prop where
  | advance (l : Loop) (t : Nat) : l.now ≤ t → LoopStep l none { l with now := t }
  | fire (l : Loop) (d : Nat) : l.timer.deadline = some d → d ≤ l.now →
      LoopStep l none { l with timer := l.timer.fire }
  | signal (l : Loop) : l.queued < capacity → LoopStep l none { l with queued := l.queued + 1 }
  | receive (l : Loop) : l.pc = .select → 0 < l.queued → LoopStep l (some (.received l.now)) l.onSignal
  | expire (l : Loop) : l.pc = .select → l.timer.buffered.isSome →
      LoopStep l (some (.fannedOut l.now)) l.onTick
  | finish (l : Loop) (ok : Bool) : l.pc = .fanOut →
      LoopStep l none { l with pc := if ok then .select else .retry }
  | retry (l : Loop) : l.pc = .retry → l.queued < capacity →
      LoopStep l none { l with queued := l.queued + 1, pc := .select }

/-- The runs of the publish loop, with the events they show in order. -/
inductive LoopRun : Loop → List Event → Loop → Prop where
  | refl (l : Loop) : LoopRun l [] l
  | quiet : LoopRun l es l' → LoopStep l' none l'' → LoopRun l es l''
  | event : LoopRun l es l' → LoopStep l' (some e) l'' → LoopRun l (es ++ [e]) l''


/-- The instant the timer is set for after the events `es`. -/
def Event.rearm (_ : Nat) : Event → Nat
  | .received t => t + debounce
  | .fannedOut t => t + park

def dueAfter (es : List Event) : Nat := es.foldl Event.rearm initialDelay

def Event.settle (q : Nat) : Event → Nat
  | .received t => t + debounce
  | .fannedOut _ => q

def quietUntil (es : List Event) : Nat := es.foldl Event.settle initialDelay

@[simp] theorem dueAfter_nil : dueAfter [] = initialDelay := rfl
@[simp] theorem dueAfter_snoc (es : List Event) (e : Event) : dueAfter (es ++ [e]) = e.rearm (dueAfter es) := by
  simp [dueAfter]
@[simp] theorem quietUntil_nil : quietUntil [] = initialDelay := rfl
@[simp] theorem quietUntil_snoc (es : List Event) (e : Event) : quietUntil (es ++ [e]) = e.settle (quietUntil es) := by
  simp [quietUntil]

theorem snoc_eq_split {α : Type} {es pre post : List α} {e x : α} (h : es ++ [e] = pre ++ x :: post) :
    (pre = es ∧ x = e ∧ post = []) ∨ ∃ post', post = post' ++ [e] ∧ es = pre ++ x :: post' := by
  rcases List.eq_nil_or_concat post with rfl | ⟨post', y, rfl⟩
  · obtain ⟨hpre, hx⟩ := List.append_inj' h rfl
    exact .inl ⟨hpre.symm, (List.singleton_inj.mp hx).symm, rfl⟩
  · have shape : es ++ [e] = (pre ++ x :: post') ++ [y] := by simpa using h
    obtain ⟨hes, hy⟩ := List.append_inj' shape rfl
    obtain rfl := List.singleton_inj.mp hy
    exact .inr ⟨post', List.concat_eq_append _ _, hes⟩

/-- The timer is set for `dueAfter es`: still active, or fired with its tick waiting in `t.C`. -/
def Armed (l : Loop) (es : List Event) : Prop :=
  l.timer = ⟨some (dueAfter es), none⟩ ∨ (l.timer = ⟨none, some (dueAfter es)⟩ ∧ dueAfter es ≤ l.now)

def QuietFanOuts (es : List Event) : Prop :=
  ∀ pre f post, es = pre ++ .fannedOut f :: post → quietUntil pre ≤ f

def ParkedFanOuts (es : List Event) : Prop :=
  ∀ pre g mid f post, es = pre ++ .fannedOut g :: (mid ++ .fannedOut f :: post) →
    (∃ t, .received t ∈ mid) ∨ g + park ≤ f

/-- What holds of the publish loop after every run. -/
structure Debounced (l : Loop) (es : List Event) : Prop where
  armed : Armed l es
  past : ∀ e ∈ es, e.instant ≤ l.now
  ordered : es.Pairwise fun a b => a.instant ≤ b.instant
  quiet : QuietFanOuts es
  parked : ParkedFanOuts es
  bounded : l.queued ≤ capacity
  running : l.pc ≠ .drainBlocked

theorem quietUntil_le_dueAfter {es : List Event} (quiet : QuietFanOuts es) : quietUntil es ≤ dueAfter es := by
  rcases List.eq_nil_or_concat es with rfl | ⟨es, e, rfl⟩
  · rfl
  · cases e with
    | received t => simp [Event.settle, Event.rearm]
    | fannedOut f =>
      have := quiet es f [] (by simp)
      simp only [List.concat_eq_append, quietUntil_snoc, dueAfter_snoc, Event.settle, Event.rearm]
      omega

theorem dueAfter_parked (pre : List Event) {mid : List Event} {g : Nat} (quietMid : ∀ t, .received t ∉ mid)
    (later : ∀ e ∈ mid, g ≤ e.instant) : g + park ≤ dueAfter (pre ++ .fannedOut g :: mid) := by
  induction mid using List.reverseRecOn with
  | nil => simp [Event.rearm]
  | append_singleton mid e ih =>
    rw [← List.cons_append, ← List.append_assoc, dueAfter_snoc]
    cases e with
    | received t => exact absurd (List.mem_append_right _ (List.mem_singleton_self _)) (quietMid t)
    | fannedOut f =>
      have := later _ (List.mem_append_right _ (List.mem_singleton_self _))
      simp only [Event.rearm, Event.instant] at this ⊢
      omega

theorem QuietFanOuts.snoc {es : List Event} {e : Event} (quiet : QuietFanOuts es)
    (new : ∀ f, e = .fannedOut f → quietUntil es ≤ f) : QuietFanOuts (es ++ [e]) := by
  intro pre f post split
  rcases snoc_eq_split split with ⟨rfl, rfl, rfl⟩ | ⟨post', rfl, old⟩
  · exact new f rfl
  · exact quiet pre f post' old

theorem ParkedFanOuts.snoc {es : List Event} {e : Event} (parked : ParkedFanOuts es)
    (ordered : es.Pairwise fun a b => a.instant ≤ b.instant)
    (new : ∀ f, e = .fannedOut f → dueAfter es ≤ f) : ParkedFanOuts (es ++ [e]) := by
  intro pre g mid f post split
  rw [← List.cons_append, ← List.append_assoc] at split
  rcases snoc_eq_split split with ⟨rfl, rfl, rfl⟩ | ⟨post', rfl, old⟩
  · by_cases signalled : ∃ t, .received t ∈ mid
    · exact .inl signalled
    · have later : ∀ e ∈ mid, g ≤ e.instant := by
        have := (List.pairwise_append.mp ordered).2.1
        exact fun e mem => List.rel_of_pairwise_cons this mem
      have := dueAfter_parked pre (not_exists.mp signalled) later
      have := new f rfl
      exact .inr (by omega)
  · exact parked pre g mid f post' (by simpa using old)

theorem pairwise_snoc_now {es : List Event} {e : Event} {now : Nat}
    (ordered : es.Pairwise fun a b => a.instant ≤ b.instant) (past : ∀ e ∈ es, e.instant ≤ now)
    (at_now : e.instant = now) : (es ++ [e]).Pairwise fun a b => a.instant ≤ b.instant :=
  List.pairwise_append.mpr ⟨ordered, List.pairwise_singleton _ _,
    fun a mem b new => by rw [List.mem_singleton.mp new, at_now]; exact past a mem⟩

theorem past_snoc_now {es : List Event} {e : Event} {now : Nat} (past : ∀ e ∈ es, e.instant ≤ now)
    (at_now : e.instant = now) : ∀ x ∈ es ++ [e], x.instant ≤ now := fun x mem => by
  rcases List.mem_append.mp mem with old | new
  · exact past x old
  · rw [List.mem_singleton.mp new, at_now]

theorem onSignal_armed {l : Loop} {es : List Event} (armed : Armed l es) :
    l.onSignal = { l with queued := l.queued - 1, timer := ⟨some (l.now + debounce), none⟩ } := by
  rcases armed with active | ⟨fired, -⟩
  · simp [Loop.onSignal, Timer.stop, Timer.reset, active]
  · simp [Loop.onSignal, Timer.stop, Timer.reset, Timer.drain, fired]

theorem LoopStep.debounced_quiet {l l' : Loop} {es : List Event} (inv : Debounced l es)
    (step : LoopStep l none l') : Debounced l' es := by
  cases step with
  | advance t later =>
    exact { inv with
      armed := by rcases inv.armed with active | ⟨fired, due⟩ <;> [exact .inl active; exact .inr ⟨fired, by simp; omega⟩]
      past := fun e mem => (inv.past e mem).trans later }
  | fire d active due =>
    refine { inv with armed := ?_ }
    rcases inv.armed with armed | ⟨fired, -⟩
    · rw [armed] at active ⊢
      cases active
      exact .inr ⟨by simp [Timer.fire], due⟩
    · simp [fired] at active
  | signal fits => exact { inv with bounded := by simpa using fits }
  | finish ok fanning => exact { inv with running := by cases ok <;> simp }
  | retry retrying fits => exact { inv with bounded := by simpa using fits, running := by simp }

theorem LoopStep.debounced_event {l l' : Loop} {es : List Event} {e : Event} (inv : Debounced l es)
    (step : LoopStep l (some e) l') : Debounced l' (es ++ [e]) := by
  cases step with
  | receive selecting waiting =>
    rw [onSignal_armed inv.armed]
    exact { armed := .inl (by simp [Event.rearm])
            past := past_snoc_now inv.past rfl
            ordered := pairwise_snoc_now inv.ordered inv.past rfl
            quiet := inv.quiet.snoc (by simp)
            parked := inv.parked.snoc inv.ordered (by simp)
            bounded := by simpa using Nat.le_trans (Nat.sub_le _ _) inv.bounded
            running := by simpa using inv.running }
  | expire selecting ticked =>
    obtain ⟨fired, due⟩ : l.timer = ⟨none, some (dueAfter es)⟩ ∧ dueAfter es ≤ l.now := by
      rcases inv.armed with active | fired
      · simp [active] at ticked
      · exact fired
    exact { armed := .inl (by simp [Loop.onTick, Timer.drain, Timer.reset, Event.rearm])
            past := past_snoc_now inv.past rfl
            ordered := pairwise_snoc_now inv.ordered inv.past rfl
            quiet := inv.quiet.snoc fun f same => by
              cases same; exact (quietUntil_le_dueAfter inv.quiet).trans due
            parked := inv.parked.snoc inv.ordered fun f same => by cases same; exact due
            bounded := inv.bounded
            running := by simp [Loop.onTick] }

theorem Debounced.init : Debounced Loop.init [] :=
  ⟨.inl rfl, by simp, .nil, fun pre f post h => by simp at h,
    fun pre g mid f post h => by simp at h, by decide, by decide⟩

theorem LoopRun.debounced {l : Loop} {es : List Event} (run : LoopRun Loop.init es l) : Debounced l es := by
  induction run with
  | refl => exact .init
  | quiet _ step ih => exact step.debounced_quiet ih
  | event _ step ih => exact step.debounced_event ih

theorem quietUntil_after_received (pre : List Event) {mid : List Event} {t : Nat} (later : ∀ e ∈ mid, t ≤ e.instant) :
    t + debounce ≤ quietUntil (pre ++ .received t :: mid) := by
  induction mid using List.reverseRecOn with
  | nil => simp [Event.settle]
  | append_singleton mid e ih =>
    rw [← List.cons_append, ← List.append_assoc, quietUntil_snoc]
    have before := ih fun e mem => later e (List.mem_append_left _ mem)
    cases e with
    | received s =>
      have := later _ (List.mem_append_right _ (List.mem_singleton_self _))
      simp only [Event.settle, Event.instant] at this ⊢
      omega
    | fannedOut f => simpa [Event.settle] using before

theorem after_in_order (pre : List Event) {post : List Event} {x : Event}
    (ordered : (pre ++ x :: post).Pairwise fun a b => a.instant ≤ b.instant) :
    ∀ b ∈ post, x.instant ≤ b.instant :=
  (List.pairwise_cons.mp (List.pairwise_append.mp ordered).2.1).1

/-- The publish loop starts `updateObservers` no earlier than 30 s after the last signal it received,
never between two signals less than 30 s apart, and a year after the previous fan-out unless a
signal came in between. -/
theorem publish_loop_debounces {l : Loop} {es : List Event} (run : LoopRun Loop.init es l) :
    (∀ pre f post, es = pre ++ .fannedOut f :: post → quietUntil pre ≤ f) ∧
    (∀ pre t₁ mid t₂ post, es = pre ++ .received t₁ :: (mid ++ .received t₂ :: post) →
      (∃ f, .fannedOut f ∈ mid) → t₁ + debounce ≤ t₂) ∧
    (∀ pre g mid f post, es = pre ++ .fannedOut g :: (mid ++ .fannedOut f :: post) →
      (∃ t, .received t ∈ mid) ∨ g + park ≤ f) := by
  have inv := run.debounced
  refine ⟨inv.quiet, ?_, inv.parked⟩
  rintro pre t₁ mid t₂ post rfl ⟨f, between⟩
  obtain ⟨mid₁, mid₂, rfl⟩ := List.append_of_mem between
  have settled := inv.quiet (pre ++ .received t₁ :: mid₁) f (mid₂ ++ .received t₂ :: post) (by simp)
  have first := after_in_order _ inv.ordered
  have waited := quietUntil_after_received pre (t := t₁)
    fun e mem => first e (List.mem_append_left _ (List.mem_append_left _ mem))
  have second := after_in_order (pre ++ .received t₁ :: mid₁) (x := .fannedOut f)
    (by simpa using inv.ordered) (.received t₂) (by simp)
  simp only [Event.instant] at second
  omega

/-- Two signals 10 s apart: the fan-out waits until 30 s after the second. -/
theorem close_signals_debounced :
    LoopRun Loop.init [.received 0, .received (10 * second), .fannedOut (40 * second)]
        ⟨40 * second, 0, ⟨some (40 * second + park), none⟩, .fanOut⟩ ∧
      quietUntil [.received 0, .received (10 * second)] ≤ 40 * second := by
  have once : LoopRun Loop.init ([] ++ [.received 0]) ⟨0, 0, ⟨some debounce, none⟩, .select⟩ :=
    .event (.quiet (.refl _) (.signal _ (by decide))) (.receive _ rfl (by decide))
  have twice : LoopRun Loop.init ([.received 0] ++ [.received (10 * second)])
      ⟨10 * second, 0, ⟨some (40 * second), none⟩, .select⟩ :=
    .event (.quiet (.quiet once (.advance _ (10 * second) (by decide))) (.signal _ (by decide)))
      (.receive _ rfl (by decide))
  have run : LoopRun Loop.init ([.received 0, .received (10 * second)] ++ [.fannedOut (40 * second)])
      ⟨40 * second, 0, ⟨some (40 * second + park), none⟩, .fanOut⟩ :=
    .event (.quiet (.quiet twice (.advance _ (40 * second) (by decide))) (.fire _ (40 * second) rfl le_rfl))
      (.expire _ rfl rfl)
  exact ⟨run, (publish_loop_debounces run).1 [.received 0, .received (10 * second)] (40 * second) [] rfl⟩

end LeResponder
