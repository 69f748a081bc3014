import OpenNtl.AtomicProgram
import Mathlib.Logic.Function.Basic

/-! # Programs side by side on one shared state

A pool holds one program per task. A scheduler picks a task and performs its next atomic step;
a task that has finished may be given another program; and the state may change from outside.
The proof rules give each task a ghost value of its own, so that an invariant of the pool can
speak of what each task still has to do.
-/
namespace AtomicProgram

variable {ι σ ε α β γ L : Type}

theorem update_part [DecidableEq ι] {h : ι → L} {i : ι} {l : L} (part : L → α)
    (same : part l = part (h i)) (j : ι) : part (Function.update h i l j) = part (h j) := by
  by_cases here : j = i
  · subst j
    rw [Function.update_self, same]
  · rw [Function.update_of_ne here]

namespace Prog

def Finished : Prog σ ε α → Prop
  | .pure _ => True
  | .throw _ => True
  | .step _ _ => False

def isFinished : Prog σ ε α → Bool
  | .step _ _ => false
  | _ => true

theorem isFinished_eq_true {p : Prog σ ε α} (h : p.isFinished = true) : p.Finished := by
  cases p with
  | pure a => trivial
  | throw e => trivial
  | step act k => cases h

theorem isFinished_eq_false {p : Prog σ ε α} (h : p.isFinished = false) : ¬ p.Finished := by
  cases p with
  | pure a => cases h
  | throw e => cases h
  | step act k => exact id

/-- Every step the program can take is a `move`, which also updates the ghost value. A program
that returns leaves a value of which `Q` holds, and one that throws a value at rest. -/
def Obeys (move : L → σ → L → σ → Prop) (rest : L → Prop) (Q : α → L → Prop) :
    Prog σ ε α → L → Prop
  | .pure a, l => Q a l
  | .throw _, l => rest l
  | .step act k, l => ∀ s, ∃ l', move l s l' (act s).2 ∧ (k (act s).1).Obeys move rest Q l'

namespace Obeys

variable {move : L → σ → L → σ → Prop} {rest : L → Prop}

theorem of_pure {Q : α → L → Prop} {a : α} {l : L} (h : Q a l) :
    (Pure.pure a : Prog σ ε α).Obeys move rest Q l := h

theorem of_throw {Q : α → L → Prop} {e : ε} {l : L} (h : rest l) :
    (Prog.throw e : Prog σ ε α).Obeys move rest Q l := h

theorem of_act {Q : α → L → Prop} {f : σ → α × σ} {l : L}
    (h : ∀ s, ∃ l', move l s l' (f s).2 ∧ Q (f s).1 l') :
    (act f : Prog σ ε α).Obeys move rest Q l := h

theorem bind {Q : β → L → Prop} {R : α → L → Prop} {p : Prog σ ε α} {f : α → Prog σ ε β} {l : L}
    (hp : p.Obeys move rest R l) (hf : ∀ a l', R a l' → (f a).Obeys move rest Q l') :
    (p >>= f).Obeys move rest Q l := by
  induction p generalizing l with
  | pure a => exact hf a l hp
  | throw e => exact hp
  | step act k ih =>
    intro s
    obtain ⟨l', moved, later⟩ := hp s
    exact ⟨l', moved, ih _ later⟩

theorem mono {Q R : α → L → Prop} (sub : ∀ a l, R a l → Q a l) {p : Prog σ ε α} {l : L}
    (hp : p.Obeys move rest R l) : p.Obeys move rest Q l := by
  induction p generalizing l with
  | pure a => exact sub a l hp
  | throw e => exact hp
  | step act k ih =>
    intro s
    obtain ⟨l', moved, later⟩ := hp s
    exact ⟨l', moved, ih _ later⟩

theorem forM {I : List γ → L → Prop} {f : γ → Prog σ ε PUnit}
    (body : ∀ x xs l, I (x :: xs) l → (f x).Obeys move rest (fun _ => I xs) l)
    {xs : List γ} {l : L} (start : I xs l) : (xs.forM f).Obeys move rest (fun _ => I []) l := by
  induction xs generalizing l with
  | nil => exact start
  | cons x xs ih => exact (body x xs l start).bind fun _ l' later => ih later

end Obeys

/-- As `Obeys`, as long as each step is taken from a state of which `J` holds. -/
def ObeysUnder (J : σ → Prop) (move : L → σ → L → σ → Prop) (rest : L → Prop)
    (Q : α → L → Prop) : Prog σ ε α → L → Prop
  | .pure a, l => Q a l
  | .throw _, l => rest l
  | .step act k, l => ∀ s, J s →
      ∃ l', move l s l' (act s).2 ∧ (k (act s).1).ObeysUnder J move rest Q l'

theorem Obeys.under {move : L → σ → L → σ → Prop} {rest : L → Prop} {Q : α → L → Prop}
    {p : Prog σ ε α} {l : L} (hp : p.Obeys move rest Q l) (J : σ → Prop) :
    p.ObeysUnder J move rest Q l := by
  induction p generalizing l with
  | pure a => exact hp
  | throw e => exact hp
  | step act k ih =>
    intro s _
    obtain ⟨l', moved, later⟩ := hp s
    exact ⟨l', moved, ih _ later⟩

theorem ObeysUnder.obeys {move : L → σ → L → σ → Prop} {rest : L → Prop} {Q : α → L → Prop}
    {p : Prog σ ε α} {l : L} (hp : p.ObeysUnder (fun _ => True) move rest Q l) :
    p.Obeys move rest Q l := by
  induction p generalizing l with
  | pure a => exact hp
  | throw e => exact hp
  | step act k ih =>
    intro s
    obtain ⟨l', moved, later⟩ := hp s trivial
    exact ⟨l', moved, ih _ later⟩

namespace ObeysUnder

variable {J : σ → Prop} {move : L → σ → L → σ → Prop} {rest : L → Prop}

theorem of_pure {Q : α → L → Prop} {a : α} {l : L} (h : Q a l) :
    (Pure.pure a : Prog σ ε α).ObeysUnder J move rest Q l := h

theorem of_throw {Q : α → L → Prop} {e : ε} {l : L} (h : rest l) :
    (Prog.throw e : Prog σ ε α).ObeysUnder J move rest Q l := h

theorem of_act {Q : α → L → Prop} {f : σ → α × σ} {l : L}
    (h : ∀ s, J s → ∃ l', move l s l' (f s).2 ∧ Q (f s).1 l') :
    (act f : Prog σ ε α).ObeysUnder J move rest Q l := h

theorem bind {Q : β → L → Prop} {R : α → L → Prop} {p : Prog σ ε α} {f : α → Prog σ ε β} {l : L}
    (hp : p.ObeysUnder J move rest R l) (hf : ∀ a l', R a l' → (f a).ObeysUnder J move rest Q l') :
    (p >>= f).ObeysUnder J move rest Q l := by
  induction p generalizing l with
  | pure a => exact hf a l hp
  | throw e => exact hp
  | step act k ih =>
    intro s holds
    obtain ⟨l', moved, later⟩ := hp s holds
    exact ⟨l', moved, ih _ later⟩

theorem mono {Q R : α → L → Prop} (sub : ∀ a l, R a l → Q a l) {p : Prog σ ε α} {l : L}
    (hp : p.ObeysUnder J move rest R l) : p.ObeysUnder J move rest Q l := by
  induction p generalizing l with
  | pure a => exact sub a l hp
  | throw e => exact hp
  | step act k ih =>
    intro s holds
    obtain ⟨l', moved, later⟩ := hp s holds
    exact ⟨l', moved, ih _ later⟩

theorem map {Q : β → L → Prop} (f : α → β) {p : Prog σ ε α} {l : L}
    (hp : p.ObeysUnder J move rest (fun a => Q (f a)) l) :
    (f <$> p).ObeysUnder J move rest Q l := by
  rw [← bind_pure_comp]
  exact hp.bind fun a l' h => of_pure h

theorem forM {I : List γ → L → Prop} {f : γ → Prog σ ε PUnit}
    (body : ∀ x xs l, I (x :: xs) l → (f x).ObeysUnder J move rest (fun _ => I xs) l)
    {xs : List γ} {l : L} (start : I xs l) :
    (xs.forM f).ObeysUnder J move rest (fun _ => I []) l := by
  induction xs generalizing l with
  | nil => exact start
  | cons x xs ih => exact (body x xs l start).bind fun _ l' later => ih later

theorem attempt_bind {Q : Except ε β → L → Prop} {R : Except ε α → L → Prop} {p : Prog σ ε α}
    {f : α → Prog σ ε β} {l : L} (hp : p.attempt.ObeysUnder J move rest R l)
    (ok : ∀ a l', R (.ok a) l' → (f a).attempt.ObeysUnder J move rest Q l')
    (error : ∀ e l', R (.error e) l' → Q (.error e) l') :
    (p >>= f).attempt.ObeysUnder J move rest Q l := by
  induction p generalizing l with
  | pure a => exact ok a l hp
  | throw e => exact error e l hp
  | step act k ih =>
    intro s holds
    obtain ⟨l', moved, later⟩ := hp s holds
    exact ⟨l', moved, ih _ later⟩

end ObeysUnder

section Focus

variable {τ : Type} (get : τ → σ) (put : τ → σ → τ)

def focus : Prog σ ε α → Prog τ ε α
  | .pure a => .pure a
  | .throw e => .throw e
  | .step act k =>
    .step (fun t => ((act (get t)).1, put t (act (get t)).2)) fun b => (k b).focus

variable {get put}

theorem ObeysUnder.focus {J : σ → Prop} {J' : τ → Prop} {move : L → σ → L → σ → Prop}
    {move' : L → τ → L → τ → Prop} {rest : L → Prop} (within : ∀ t, J' t → J (get t))
    (moves : ∀ l t l' s', J' t → move l (get t) l' s' → move' l t l' (put t s'))
    {Q : α → L → Prop} {p : Prog σ ε α} {l : L} (hp : p.ObeysUnder J move rest Q l) :
    (p.focus get put).ObeysUnder J' move' rest Q l := by
  induction p generalizing l with
  | pure a => exact hp
  | throw e => exact hp
  | step act k ih =>
    intro t holds
    obtain ⟨l', moved, later⟩ := hp (get t) (within t holds)
    exact ⟨l', moves _ _ _ _ holds moved, ih _ later⟩

end Focus
end Prog

/-- One program per task, and the state they share. -/
structure Pool (ι σ ε α : Type) where
  task : ι → Prog σ ε α
  state : σ

namespace Pool

def Quiescent (P : Pool ι σ ε α) : Prop := ∀ i, (P.task i).Finished

variable [DecidableEq ι]

def advance (P : Pool ι σ ε α) (i : ι) : Pool ι σ ε α :=
  match P.task i with
  | .step act k =>
    ⟨Function.update P.task i (k (act P.state).1), (act P.state).2⟩
  | _ => P

theorem advance_eq (P : Pool ι σ ε α) (i : ι) :
    P.advance i = ⟨Function.update P.task i ((P.task i).next P.state).1,
      ((P.task i).next P.state).2⟩ := by
  have idle : Function.update P.task i (P.task i) = P.task := Function.update_eq_self i P.task
  unfold advance
  cases task : P.task i with
  | pure a =>
    rw [task] at idle
    change P = ⟨Function.update P.task i (.pure a), P.state⟩
    rw [idle]
  | throw e =>
    rw [task] at idle
    change P = ⟨Function.update P.task i (.throw e), P.state⟩
    rw [idle]
  | step act k => rfl

def begin (P : Pool ι σ ε α) (i : ι) (p : Prog σ ε α) : Pool ι σ ε α :=
  ⟨Function.update P.task i p, P.state⟩

/-- `menu` says which programs a task may be given, and `outside` what may happen to the state
between two steps. -/
inductive Step (menu : ι → Prog σ ε α → Prop) (outside : σ → σ → Prop) :
    Pool ι σ ε α → Pool ι σ ε α → Prop
  | start {P : Pool ι σ ε α} {i : ι} {p : Prog σ ε α} (idle : (P.task i).Finished)
      (offered : menu i p) : Step menu outside P (P.begin i p)
  | advance {P : Pool ι σ ε α} {i : ι} (busy : ¬ (P.task i).Finished) :
      Step menu outside P (P.advance i)
  | outside {P : Pool ι σ ε α} {s : σ} (change : outside P.state s) :
      Step menu outside P ⟨P.task, s⟩

/-- What can be reached by steps that all satisfy a condition on the states around them. -/
inductive Run (menu : ι → Prog σ ε α → Prop) (outside clean : σ → σ → Prop)
    (P₀ : Pool ι σ ε α) : Pool ι σ ε α → Prop
  | refl : Run menu outside clean P₀ P₀
  | step {P P' : Pool ι σ ε α} : Run menu outside clean P₀ P → Step menu outside P P' →
      clean P.state P'.state → Run menu outside clean P₀ P'

variable {menu : ι → Prog σ ε α → Prop} {outside clean : σ → σ → Prop}

/-- Follow a schedule, as long as each step is there to be taken and passes a check. -/
def follow (check : σ → σ → Bool) (P : Pool ι σ ε α) : List ι → Option (Pool ι σ ε α)
  | [] => some P
  | i :: rest =>
    if (P.task i).isFinished = false ∧ check P.state (P.advance i).state = true then
      (P.advance i).follow check rest
    else none

theorem Run.follow {check : σ → σ → Bool} (sound : ∀ s s', check s s' = true → clean s s')
    {P₀ P P' : Pool ι σ ε α} (run : Run menu outside clean P₀ P) {schedule : List ι}
    (followed : P.follow check schedule = some P') : Run menu outside clean P₀ P' := by
  induction schedule generalizing P with
  | nil =>
    cases followed
    exact run
  | cons i rest ih =>
    unfold Pool.follow at followed
    split at followed
    · rename_i passed
      exact ih (run.step (.advance (Prog.isFinished_eq_false passed.1)) (sound _ _ passed.2))
        followed
    · cases followed

theorem Run.alone (free : ∀ s s', clean s s') {P₀ P : Pool ι σ ε α} {i : ι} {p : Prog σ ε α}
    (run : Run menu outside clean P₀ P) (task : P.task i = p) :
    ∃ P', Run menu outside clean P₀ P' ∧ P'.state = (p.run P.state).2 ∧ (P'.task i).Finished ∧
      ∀ j, j ≠ i → P'.task j = P.task j := by
  induction p generalizing P with
  | pure a => exact ⟨P, run, rfl, by rw [task]; trivial, fun _ _ => rfl⟩
  | throw e => exact ⟨P, run, rfl, by rw [task]; trivial, fun _ _ => rfl⟩
  | step act k ih =>
    have busy : ¬ (P.task i).Finished := by
      rw [task]
      exact id
    have advanced : P.advance i =
        ⟨Function.update P.task i (k (act P.state).1), (act P.state).2⟩ := by
      unfold advance
      rw [task]
    have next := run.step (.advance busy) (free _ _)
    rw [advanced] at next
    obtain ⟨P', reached, state, finished, others⟩ := ih _ next (Function.update_self ..)
    refine ⟨P', reached, state, finished, fun j ne => ?_⟩
    rw [others j ne]
    exact Function.update_of_ne ne _ _

theorem Run.perform (free : ∀ s s', clean s s') {P₀ P : Pool ι σ ε α} {i : ι} {p : Prog σ ε α}
    (run : Run menu outside clean P₀ P) (quiet : P.Quiescent) (offered : menu i p) :
    ∃ P', Run menu outside clean P₀ P' ∧ P'.state = (p.run P.state).2 ∧ P'.Quiescent := by
  have started := run.step (.start (quiet i) offered) (free _ _)
  have given : (P.begin i p).task i = p := by
    simp only [begin, Function.update_self]
  obtain ⟨P', reached, state, finished, others⟩ := started.alone free given
  refine ⟨P', reached, state, fun j => ?_⟩
  by_cases same : j = i
  · rw [same]
    exact finished
  · rw [others j same]
    simp only [begin, Function.update_of_ne same]
    exact quiet j

theorem Run.performAll (free : ∀ s s', clean s s') {P₀ P : Pool ι σ ε α}
    (run : Run menu outside clean P₀ P) (quiet : P.Quiescent) (jobs : List (ι × Prog σ ε α))
    (offered : ∀ job ∈ jobs, menu job.1 job.2) :
    ∃ P', Run menu outside clean P₀ P' ∧ P'.Quiescent ∧
      P'.state = jobs.foldl (fun s job => (job.2.run s).2) P.state := by
  induction jobs generalizing P with
  | nil => exact ⟨P, run, quiet, rfl⟩
  | cons job rest ih =>
    obtain ⟨P₁, reached, state, quiet₁⟩ := run.perform free quiet (offered job List.mem_cons_self)
    obtain ⟨P₂, done, quiet₂, last⟩ :=
      ih reached quiet₁ fun job' later => offered job' (List.mem_cons_of_mem _ later)
    rw [state] at last
    exact ⟨P₂, done, quiet₂, last⟩

/-- An invariant of the pool, with a ghost value for each task. -/
structure Inductive (menu : ι → Prog σ ε α → Prop) (outside clean : σ → σ → Prop)
    (move : L → σ → L → σ → Prop) (rest : L → Prop) (I : (ι → L) → σ → Prop) : Prop where
  obeys : ∀ i p, menu i p → ∀ l, rest l → p.Obeys move rest (fun _ => rest) l
  moves : ∀ h i l s s', I h s → move (h i) s l s' → clean s s' → I (Function.update h i l) s'
  changes : ∀ h s s', I h s → outside s s' → clean s s' → I h s'

/-- The same, with steps taken from states of which `J` holds. -/
structure InductiveUnder (menu : ι → Prog σ ε α → Prop) (outside clean : σ → σ → Prop)
    (J : σ → Prop) (move : L → σ → L → σ → Prop) (rest : L → Prop) (I : (ι → L) → σ → Prop) :
    Prop where
  within : ∀ h s, I h s → J s
  obeys : ∀ i p, menu i p → ∀ l, rest l → p.ObeysUnder J move rest (fun _ => rest) l
  moves : ∀ h i l s s', I h s → move (h i) s l s' → clean s s' → I (Function.update h i l) s'
  changes : ∀ h s s', I h s → outside s s' → clean s s' → I h s'

theorem Finished.rests {move : L → σ → L → σ → Prop} {rest : L → Prop} {p : Prog σ ε α} {l : L}
    (finished : p.Finished) (obeys : p.Obeys move rest (fun _ => rest) l) : rest l := by
  cases p with
  | pure a => exact obeys
  | throw e => exact obeys
  | step act k => cases finished

theorem Finished.restsUnder {J : σ → Prop} {move : L → σ → L → σ → Prop} {rest : L → Prop}
    {p : Prog σ ε α} {l : L} (finished : p.Finished)
    (obeys : p.ObeysUnder J move rest (fun _ => rest) l) : rest l := by
  cases p with
  | pure a => exact obeys
  | throw e => exact obeys
  | step act k => cases finished

/-- What one step of the pool does to the ghost values. -/
inductive Tracks (outside : σ → σ → Prop) (move : L → σ → L → σ → Prop) (h : ι → L) (s : σ) :
    (ι → L) → σ → Prop
  | start : Tracks outside move h s h s
  | move {i : ι} {l : L} {s' : σ} (moved : move (h i) s l s') :
      Tracks outside move h s (Function.update h i l) s'
  | outside {s' : σ} (change : outside s s') : Tracks outside move h s h s'

theorem Step.tracks {J : σ → Prop} {move : L → σ → L → σ → Prop} {rest : L → Prop}
    {I : (ι → L) → σ → Prop} (keeps : InductiveUnder menu outside clean J move rest I)
    {P P' : Pool ι σ ε α} {h : ι → L} (holds : I h P.state)
    (obeys : ∀ i, (P.task i).ObeysUnder J move rest (fun _ => rest) (h i))
    (step : Step menu outside P P') (condition : clean P.state P'.state) :
    ∃ h', Tracks outside move h P.state h' P'.state ∧ I h' P'.state ∧
      ∀ i, (P'.task i).ObeysUnder J move rest (fun _ => rest) (h' i) := by
  cases step with
  | @start i p idle offered =>
    refine ⟨h, .start, holds, fun j => ?_⟩
    by_cases same : j = i
    · subst j
      simp only [begin, Function.update_self]
      exact keeps.obeys i p offered _ (Finished.restsUnder idle (obeys i))
    · simp only [begin, Function.update_of_ne same]
      exact obeys j
  | @advance i busy =>
    cases task : P.task i with
    | pure a =>
      rw [task] at busy
      exact absurd trivial busy
    | throw e =>
      rw [task] at busy
      exact absurd trivial busy
    | step act k =>
      have next := obeys i
      rw [task] at next
      obtain ⟨l, moved, later⟩ := next P.state (keeps.within h _ holds)
      have advanced : P.advance i =
          ⟨Function.update P.task i (k (act P.state).1), (act P.state).2⟩ := by
        unfold Pool.advance
        rw [task]
      rw [advanced] at condition ⊢
      refine ⟨Function.update h i l, .move moved, keeps.moves h i l _ _ holds moved condition,
        fun j => ?_⟩
      by_cases same : j = i
      · subst j
        simp only [Function.update_self]
        exact later
      · simp only [Function.update_of_ne same]
        exact obeys j
  | outside change =>
    exact ⟨h, .outside change, keeps.changes h _ _ holds change condition, obeys⟩

omit [DecidableEq ι] in
theorem Quiescent.obeysUnder {J : σ → Prop} {move : L → σ → L → σ → Prop} {rest : L → Prop}
    {P : Pool ι σ ε α} {h : ι → L} (quiet : P.Quiescent) (atRest : ∀ i, rest (h i)) (i : ι) :
    (P.task i).ObeysUnder J move rest (fun _ => rest) (h i) := by
  have finished := quiet i
  cases task : P.task i with
  | pure a => exact atRest i
  | throw e => exact atRest i
  | step act k =>
    rw [task] at finished
    cases finished

theorem Run.invariantUnder {J : σ → Prop} {move : L → σ → L → σ → Prop} {rest : L → Prop}
    {I : (ι → L) → σ → Prop} (keeps : InductiveUnder menu outside clean J move rest I)
    {P₀ P : Pool ι σ ε α} {h₀ : ι → L} (init : I h₀ P₀.state) (quiet : P₀.Quiescent)
    (atRest : ∀ i, rest (h₀ i)) (run : Run menu outside clean P₀ P) :
    ∃ h, I h P.state ∧ ∀ i, (P.task i).ObeysUnder J move rest (fun _ => rest) (h i) := by
  induction run with
  | refl => exact ⟨h₀, init, quiet.obeysUnder atRest⟩
  | step _ step condition ih =>
    obtain ⟨h, holds, obeys⟩ := ih
    obtain ⟨h', -, holds', obeys'⟩ := step.tracks keeps holds obeys condition
    exact ⟨h', holds', obeys'⟩

theorem Run.invariant {move : L → σ → L → σ → Prop} {rest : L → Prop} {I : (ι → L) → σ → Prop}
    (keeps : Inductive menu outside clean move rest I) {P₀ P : Pool ι σ ε α} {h₀ : ι → L}
    (init : I h₀ P₀.state) (quiet : P₀.Quiescent) (atRest : ∀ i, rest (h₀ i))
    (run : Run menu outside clean P₀ P) :
    ∃ h, I h P.state ∧ ∀ i, (P.task i).Obeys move rest (fun _ => rest) (h i) := by
  have under : InductiveUnder menu outside clean (fun _ => True) move rest I :=
    ⟨fun _ _ _ => trivial, fun i p offered l rests => (keeps.obeys i p offered l rests).under _,
      keeps.moves, keeps.changes⟩
  obtain ⟨h, holds, obeys⟩ := run.invariantUnder under init quiet atRest
  exact ⟨h, holds, fun i => (obeys i).obeys⟩

omit [DecidableEq ι] in
theorem Quiescent.rests {move : L → σ → L → σ → Prop} {rest : L → Prop} {P : Pool ι σ ε α}
    {h : ι → L} (quiet : P.Quiescent)
    (obeys : ∀ i, (P.task i).Obeys move rest (fun _ => rest) (h i)) (i : ι) : rest (h i) :=
  Finished.rests (quiet i) (obeys i)

end Pool

/-- From states of which `J` holds the program stays in them, every step is a `move`, and `R` holds
of its answer. -/
def Prog.Maintains (J : σ → Prop) (move : σ → σ → Prop) (R : α → Prop) (p : Prog σ ε α) : Prop :=
  p.ObeysUnder J (fun (_ : Unit) s _ s' => J s' ∧ move s s') (fun l => l = ()) (fun a _ => R a) ()

namespace Prog.Maintains

variable {J : σ → Prop} {move : σ → σ → Prop} {R : α → Prop} {S : β → Prop}

theorem pure {a : α} (h : R a) : (Pure.pure a : Prog σ ε α).Maintains J move R := h

theorem throw (e : ε) : (Prog.throw e : Prog σ ε α).Maintains J move R := rfl

theorem bind {p : Prog σ ε α} {f : α → Prog σ ε β} (hp : p.Maintains J move R)
    (hf : ∀ a, R a → (f a).Maintains J move S) : (p >>= f).Maintains J move S :=
  ObeysUnder.bind hp fun a _ known => hf a known

theorem act {f : σ → α × σ} (h : ∀ s, J s → (J (f s).2 ∧ move s (f s).2) ∧ R (f s).1) :
    (Prog.act f : Prog σ ε α).Maintains J move R :=
  ObeysUnder.of_act fun s holds => ⟨(), h s holds⟩

theorem forM {f : γ → Prog σ ε PUnit} {xs : List γ}
    (body : ∀ x ∈ xs, (f x).Maintains J move fun _ => True) :
    (xs.forM f).Maintains J move fun _ => True := by
  induction xs with
  | nil => exact pure trivial
  | cons x xs ih =>
    exact (body x List.mem_cons_self).bind fun _ _ =>
      ih fun y later => body y (List.mem_cons_of_mem x later)

theorem optional {f : γ → Prog σ ε PUnit} {o : Option γ}
    (body : ∀ x, o = some x → (f x).Maintains J move fun _ => True) :
    (o.forM f).Maintains J move fun _ => True := by
  cases o with
  | none => exact pure trivial
  | some x => exact body x rfl

end Prog.Maintains

/-- What every program on the menu and everything else keeps, every run keeps; and whatever step a
task takes next is a `move`. -/
theorem Pool.Run.maintains [DecidableEq ι] {menu : ι → Prog σ ε α → Prop}
    {outside clean : σ → σ → Prop} {J : σ → Prop} {move : σ → σ → Prop}
    (programs : ∀ i p, menu i p → p.Maintains J move fun _ => True)
    (changes : ∀ s s', J s → outside s s' → J s') {P₀ P : Pool ι σ ε α} (init : J P₀.state)
    (quiet : P₀.Quiescent) (run : Run menu outside clean P₀ P) :
    J P.state ∧ ∀ i, ¬ (P.task i).Finished → move P.state (P.advance i).state := by
  have keeps : InductiveUnder menu outside clean J (fun (_ : Unit) s _ s' => J s' ∧ move s s')
      (fun l => l = ()) (fun _ => J) := {
    within := fun _ _ holds => holds
    obeys := fun i p offered l _ => Prog.ObeysUnder.mono (fun _ _ _ => rfl) (programs i p offered)
    moves := fun _ _ _ _ _ _ moved _ => moved.1
    changes := fun _ s s' holds change _ => changes s s' holds change }
  obtain ⟨_, holds, obeys⟩ := run.invariantUnder keeps init quiet fun _ => rfl
  refine ⟨holds, fun i busy => ?_⟩
  have next := obeys i
  unfold Pool.advance
  cases task : P.task i with
  | pure a => exact absurd (task ▸ trivial) busy
  | throw e => exact absurd (task ▸ trivial) busy
  | step act k =>
    rw [task] at next
    obtain ⟨_, moved, -⟩ := next P.state holds
    exact moved.2

end AtomicProgram
