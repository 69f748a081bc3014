import OpenNtl.Drawing
import OpenNtl.ExplorationFlag

/-! # Sampling with its index checks

`sample_paths` as a program that draws from a source, in which every index, slice and subtraction
is checked. It never fails a check. -/
namespace OpenNtl
namespace Drawing

open StreamReader

variable {F : Type} [Scalar F] {α β : Type}

def require (inside : Prop) [Decidable inside] : Drawing Unit :=
  if inside then pure () else throw .panics

def readAt (xs : List α) (i : ℕ) : Drawing α :=
  match xs[i]? with
  | some x => pure x
  | none => throw .panics

def writeAt (xs : List α) (i : ℕ) (x : α) : Drawing (List α) := do
  require (i < xs.length)
  return xs.set i x

def upTo (xs : List α) (k : ℕ) : Drawing (List α) := do
  require (k ≤ xs.length)
  return xs.take k

def fromOn (xs : List α) (k : ℕ) : Drawing (List α) := do
  require (k ≤ xs.length)
  return xs.drop k

def lessOne (n : ℕ) : Drawing ℕ := do
  require (0 < n)
  return n - 1

def takeOut (xs : List α) (i : ℕ) : Drawing (α × List α) := do
  let x ← readAt xs i
  return (x, OpenNtl.swapRemove xs i)

theorem require_of {inside : Prop} [Decidable inside] (holds : inside) :
    require inside = pure () := if_pos holds

theorem readAt_eq {xs : List α} {i : ℕ} (inside : i < xs.length) (default : α) :
    readAt xs i = pure (xs.getD i default) := by
  rw [readAt, List.getD_eq_getElem?_getD, List.getElem?_eq_getElem inside]
  rfl

theorem writeAt_eq {xs : List α} {i : ℕ} (inside : i < xs.length) (x : α) :
    writeAt xs i x = pure (xs.set i x) := by
  rw [writeAt, require_of inside, pure_bind]

theorem upTo_eq {xs : List α} {k : ℕ} (inside : k ≤ xs.length) : upTo xs k = pure (xs.take k) := by
  rw [upTo, require_of inside, pure_bind]

theorem fromOn_eq {xs : List α} {k : ℕ} (inside : k ≤ xs.length) :
    fromOn xs k = pure (xs.drop k) := by
  rw [fromOn, require_of inside, pure_bind]

theorem lessOne_eq {n : ℕ} (pos : 0 < n) : lessOne n = pure (n - 1) := by
  rw [lessOne, require_of pos, pure_bind]

theorem takeOut_eq {xs : List α} {i : ℕ} (inside : i < xs.length) (default : α) :
    takeOut xs i = pure (xs.getD i default, OpenNtl.swapRemove xs i) := by
  rw [takeOut, readAt_eq inside default, pure_bind]

theorem mapM_eq_pure {ι : Type} {p : ι → Drawing β} {g : ι → β} {xs : List ι}
    (each : ∀ x ∈ xs, p x = pure (g x)) : xs.mapM p = pure (xs.map g) := by
  induction xs with
  | nil => rfl
  | cons x xs ih =>
    have rest := ih fun y hy => each y (List.mem_cons_of_mem x hy)
    rw [List.mapM_cons, each x List.mem_cons_self, rest]
    simp

theorem mapM_readAt {xs : List ℕ} {values : List α} (inside : ∀ i ∈ xs, i < values.length)
    (g : ℕ → α → β) (default : α) :
    (xs.mapM fun i => do return g i (← readAt values i)) =
      (pure (xs.map fun i => g i (values.getD i default)) : Drawing (List β)) := by
  apply mapM_eq_pure
  intro i hi
  rw [readAt_eq (inside i hi) default, pure_bind]

/-- One draw of `softmax_sample`: a position in `remaining`. The fold from the lowest value starts
at the first score. -/
def softmaxPick (scores : List F) (temperature : F) (remaining : List ℕ) : Drawing ℕ := do
  let values ← remaining.mapM (readAt scores)
  let maxScore := values.tail.foldl max (values.headD 0)
  let weights ← remaining.mapM fun i => do
    return Scalar.exp (((← readAt scores i) - maxScore) / temperature)
  let total := Scalar.sum weights
  if 0 < total ∧ Scalar.isFinite total then
    let draw ← nextF32
    let _ ← lessOne weights.length
    return pickSlot (draw * total) weights 0 0
  else
    let pick ← nextBelow remaining.length
    return pick.getD 0

def softmaxSample (scores : List F) (temperature : F) (best : Option ℕ) :
    ℕ → List ℕ → Drawing (List (Selection F))
  | 0, _ => return []
  | k + 1, remaining =>
    if remaining.isEmpty then return []
    else do
      let pick ← softmaxPick scores temperature remaining
      let (index, left) ← takeOut remaining pick
      let score ← readAt scores index
      let rest ← softmaxSample scores temperature best k left
      return { index := index, score := score, explored := some index ≠ best } :: rest

/-- A uniform pick from the rest replaces the weakest of the exploitation picks. -/
def substitute (order chosen : List ℕ) (k : ℕ) : Drawing (List ℕ × Option ℕ) := do
  let pool ← fromOn order k
  let pick ← nextBelow pool.length
  match pick with
  | some pick =>
    let swappedIn ← readAt pool pick
    let last ← lessOne k
    let chosen ← writeAt chosen last swappedIn
    return (chosen, some swappedIn)
  | none => return (chosen, none)

def epsilonGreedySample (scores : List F) (k : ℕ) (epsilon : F) :
    Drawing (List (Selection F)) := do
  let k := min k scores.length
  -- The comparison that sorts the candidates reads their scores.
  require (∀ i ∈ List.range scores.length, i < scores.length)
  let order := bestFirst scores
  let chosen ← upTo order k
  let draw ← nextF32
  let (chosen, exploredIndex) ←
    if draw < epsilon ∧ k < order.length then substitute order chosen k
    else pure (chosen, none)
  chosen.mapM fun index => do
    return {
      index := index
      score := ← readAt scores index
      explored := some index = exploredIndex }

def samplePaths (scores : List F) (k : ℕ) (policy : ExplorationPolicy F)
    (config : LearningConfig F) : Drawing (List (Selection F)) :=
  if scores.isEmpty ∨ k = 0 then return []
  else do
    let out ←
      match policy with
      | .softmax =>
        softmaxSample scores config.effectiveTemperature (argmax scores) (min k scores.length)
          (List.range scores.length)
      | .epsilonGreedy epsilon => epsilonGreedySample scores k epsilon
    return sortBy (fun a b => Scalar.partialCmp b.score a.score) out

section Follow

variable {scores : List F} {bound : ℕ}

theorem softmaxPick_follows (temperature : F) {remaining : List ℕ} (nonempty : remaining ≠ [])
    (inside : ∀ i ∈ remaining, i < scores.length) (few : remaining.length ≤ bound) :
    Follows (softmaxPick scores temperature remaining)
      (OpenNtl.softmaxPick scores temperature remaining) bound := by
  let score (i : ℕ) : F := scores.getD i 0
  let maxScore := remaining.tail.foldl (fun m i => max m (score i)) (score (remaining.headD 0))
  let weights := remaining.map fun i => Scalar.exp ((score i - maxScore) / temperature)
  let total := Scalar.sum weights
  have read : remaining.mapM (readAt scores) = pure (remaining.map score) :=
    mapM_eq_pure fun i hi => readAt_eq (inside i hi) 0
  have top : (remaining.map score).tail.foldl max ((remaining.map score).headD 0) = maxScore := by
    obtain ⟨r, rest, rfl⟩ := List.exists_cons_of_ne_nil nonempty
    exact List.foldl_map
  have some' : 0 < weights.length := by
    rw [List.length_map]
    exact List.length_pos_iff.mpr nonempty
  have checked : softmaxPick scores temperature remaining =
      if 0 < total ∧ Scalar.isFinite total then do
        let draw ← nextF32
        return pickSlot (draw * total) weights 0 0
      else do
        let pick ← nextBelow remaining.length
        return pick.getD 0 := by
    rw [softmaxPick, read, pure_bind]
    dsimp only
    rw [top, mapM_readAt inside (fun _ s => Scalar.exp ((s - maxScore) / temperature)) 0, pure_bind,
      lessOne_eq some']
    rfl
  rw [checked]
  by_cases spread : 0 < total ∧ Scalar.isFinite total
  · rw [if_pos spread]
    have plain : OpenNtl.softmaxPick scores temperature remaining = fun r =>
        (pickSlot ((r.nextF32 (F := F)).1 * total) weights 0 0, (r.nextF32 (F := F)).2) := by
      funext r
      exact if_pos spread
    rw [plain]
    exact (nextF32_follows bound).bind fun draw _ =>
      follows_pure (pickSlot (draw * total) weights 0 0) bound
  · rw [if_neg spread]
    have plain : OpenNtl.softmaxPick scores temperature remaining = fun r =>
        ((r.nextBelow remaining.length).1.getD 0, (r.nextBelow remaining.length).2) := by
      funext r
      exact if_neg spread
    rw [plain]
    exact (nextBelow_follows few).bind fun pick _ => follows_pure (pick.getD 0) bound

theorem softmaxSample_follows (temperature : F) (best : Option ℕ) (k : ℕ) {remaining : List ℕ}
    (inside : ∀ i ∈ remaining, i < scores.length) (few : remaining.length ≤ bound) :
    Follows (softmaxSample scores temperature best k remaining)
      (OpenNtl.softmaxSample scores temperature best k remaining) bound := by
  induction k generalizing remaining with
  | zero => exact follows_pure [] bound
  | succ k ih =>
    by_cases empty : remaining.isEmpty = true
    · have checked : softmaxSample scores temperature best (k + 1) remaining = pure [] :=
        if_pos empty
      have plain : OpenNtl.softmaxSample scores temperature best (k + 1) remaining = fun r =>
          ([], r) := by
        funext r
        exact if_pos empty
      rw [checked, plain]
      exact follows_pure [] bound
    · have nonempty : remaining ≠ [] := fun none => empty (List.isEmpty_iff.mpr none)
      let selected (index : ℕ) : Selection F :=
        { index := index, score := scores.getD index 0, explored := some index ≠ best }
      have checked : softmaxSample scores temperature best (k + 1) remaining = (do
          let pick ← softmaxPick scores temperature remaining
          let (index, left) ← takeOut remaining pick
          let score ← readAt scores index
          let rest ← softmaxSample scores temperature best k left
          return { index := index, score := score, explored := some index ≠ best } :: rest) :=
        if_neg empty
      let later (pick : ℕ) (r : Rng) : List (Selection F) × Rng :=
        let sampled := OpenNtl.softmaxSample scores temperature best k (swapRemove remaining pick) r
        (selected (remaining.getD pick 0) :: sampled.1, sampled.2)
      have plain : OpenNtl.softmaxSample scores temperature best (k + 1) remaining = fun r =>
          later (OpenNtl.softmaxPick scores temperature remaining r).1
            (OpenNtl.softmaxPick scores temperature remaining r).2 := by
        funext r
        exact if_neg empty
      rw [checked, plain]
      apply Follows.bind (g := later) (softmaxPick_follows temperature nonempty inside few)
      rintro pick ⟨r, rfl⟩
      have here := softmaxPick_lt scores temperature nonempty r
      generalize (OpenNtl.softmaxPick scores temperature remaining r).1 = pick at here ⊢
      have perm := swapRemove_perm here
      have index : remaining.getD pick 0 = remaining[pick] := by
        simp [List.getD_eq_getElem?_getD, here]
      have inRange : remaining.getD pick 0 < scores.length := by
        rw [index]
        exact inside _ (List.getElem_mem here)
      rw [takeOut_eq here 0, pure_bind]
      dsimp only
      rw [readAt_eq inRange 0, pure_bind]
      have left : ∀ i ∈ swapRemove remaining pick, i < scores.length := fun i hi =>
        inside i (perm.mem_iff.mp (List.mem_cons_of_mem _ hi))
      have fewer : (swapRemove remaining pick).length ≤ bound := by
        have whole := perm.length_eq
        rw [List.length_cons] at whole
        omega
      exact (ih left fewer).bind fun rest _ =>
        follows_pure (selected (remaining.getD pick 0) :: rest) bound

def substituted (order chosen : List ℕ) (k : ℕ) (r : Rng) : (List ℕ × Option ℕ) × Rng :=
  let drawn := r.nextBelow (order.drop k).length
  match drawn.1 with
  | some pick =>
    ((chosen.set (k - 1) ((order.drop k).getD pick 0), some ((order.drop k).getD pick 0)), drawn.2)
  | none => ((chosen, none), drawn.2)

theorem substitute_follows {order chosen : List ℕ} {k : ℕ} (pos : 0 < k)
    (short : k ≤ order.length) (full : chosen.length = k) (few : order.length ≤ bound) :
    Follows (substitute order chosen k) (substituted order chosen k) bound := by
  let swap (pick : Option ℕ) (r : Rng) : (List ℕ × Option ℕ) × Rng :=
    match pick with
    | some pick =>
      ((chosen.set (k - 1) ((order.drop k).getD pick 0), some ((order.drop k).getD pick 0)), r)
    | none => ((chosen, none), r)
  have plain : substituted order chosen k = fun r =>
      swap (r.nextBelow (order.drop k).length).1 (r.nextBelow (order.drop k).length).2 := rfl
  have fewer : (order.drop k).length ≤ bound := by
    rw [List.length_drop]
    omega
  rw [substitute, fromOn_eq short, pure_bind, plain]
  apply Follows.bind (g := swap) (nextBelow_follows fewer)
  rintro pick ⟨r, drawn⟩
  cases pick with
  | none => exact follows_pure (chosen, none) bound
  | some pick =>
    have inside : pick < (order.drop k).length := Rng.nextBelow_lt (Prod.ext drawn rfl)
    have slot : k - 1 < chosen.length := by omega
    dsimp only
    rw [readAt_eq inside 0, pure_bind, lessOne_eq pos, pure_bind, writeAt_eq slot, pure_bind]
    exact follows_pure (_, _) bound

theorem substituted_candidate {order chosen : List ℕ} (subset : ∀ i ∈ chosen, i ∈ order) (k : ℕ)
    (r : Rng) : ∀ i ∈ (substituted order chosen k r).1.1, i ∈ order := by
  intro i hi
  simp only [substituted] at hi
  cases drawn : (r.nextBelow (order.drop k).length).1 with
  | none =>
    rw [drawn] at hi
    exact subset i hi
  | some pick =>
    rw [drawn] at hi
    have inside : pick < (order.drop k).length := Rng.nextBelow_lt (Prod.ext drawn rfl)
    rcases List.mem_or_eq_of_mem_set hi with kept | rfl
    · exact subset i kept
    · rw [List.getD_eq_getElem?_getD, List.getElem?_eq_getElem inside]
      exact List.mem_of_mem_drop (List.getElem_mem inside)

/-- The selections of these candidates, one of which may be explored. -/
def selectionsOf (scores : List F) (picked : List ℕ × Option ℕ) : List (Selection F) :=
  picked.1.map fun index =>
    { index := index, score := scores.getD index 0, explored := some index = picked.2 }

theorem mapM_selections (picked : List ℕ × Option ℕ)
    (subset : ∀ i ∈ picked.1, i ∈ bestFirst scores) :
    (picked.1.mapM fun index => do
      return {
        index := index
        score := ← readAt scores index
        explored := some index = picked.2 }) =
      (pure (selectionsOf scores picked) : Drawing (List (Selection F))) := by
  let selected (index : ℕ) (s : F) : Selection F := ⟨index, s, some index = picked.2⟩
  have inside : ∀ i ∈ picked.1, i < scores.length := fun i hi =>
    List.mem_range.mp ((bestFirst_perm scores).mem_iff.mp (subset i hi))
  exact mapM_readAt inside selected 0

/-- The candidates that a greedy choice takes after its first draw, where nothing is checked. -/
def greedyAfter (scores : List F) (k : ℕ) (epsilon draw : F) (r : Rng) :
    (List ℕ × Option ℕ) × Rng :=
  if draw < epsilon ∧ k < (bestFirst scores).length then
    substituted (bestFirst scores) ((bestFirst scores).take k) k r
  else (((bestFirst scores).take k, none), r)

theorem epsilonGreedySample_eq (scores : List F) (k : ℕ) (epsilon : F) (r : Rng) :
    OpenNtl.epsilonGreedySample scores k epsilon r =
      let picked := greedyAfter scores (min k scores.length) epsilon (r.nextF32 (F := F)).1
        (r.nextF32 (F := F)).2
      (selectionsOf scores picked.1, picked.2) := by
  have order : sortBy (fun a b => (Scalar.partialCmp (scores.getD b 0) (scores.getD a 0)).then
      (compare a b)) (List.range scores.length) = bestFirst scores := rfl
  simp only [OpenNtl.epsilonGreedySample, greedyAfter, order]
  split_ifs with explores
  · simp only [substituted]
    cases ((r.nextF32 (F := F)).2.nextBelow
      ((bestFirst scores).drop (min k scores.length)).length).1 with
    | none => rfl
    | some pick => rfl
  · rfl

theorem epsilonGreedySample_follows {k : ℕ} (pos : 0 < k) (some' : scores ≠ []) (epsilon : F)
    (few : scores.length ≤ bound) : Follows (epsilonGreedySample scores k epsilon)
      (OpenNtl.epsilonGreedySample scores k epsilon) bound := by
  let best := (bestFirst scores).take (min k scores.length)
  let finish (picked : List ℕ × Option ℕ) (r : Rng) : List (Selection F) × Rng :=
    (selectionsOf scores picked, r)
  let sample (draw : F) (r : Rng) : List (Selection F) × Rng :=
    finish (greedyAfter scores (min k scores.length) epsilon draw r).1
      (greedyAfter scores (min k scores.length) epsilon draw r).2
  have plain : OpenNtl.epsilonGreedySample scores k epsilon = fun r =>
      sample (r.nextF32 (F := F)).1 (r.nextF32 (F := F)).2 :=
    funext (epsilonGreedySample_eq scores k epsilon)
  have short : min k scores.length ≤ (bestFirst scores).length := by
    rw [length_bestFirst]
    exact min_le_right _ _
  have top : upTo (bestFirst scores) (min k scores.length) = pure best := upTo_eq short
  have subset : ∀ i ∈ best, i ∈ bestFirst scores := fun i hi => List.mem_of_mem_take hi
  rw [epsilonGreedySample]
  dsimp only
  rw [require_of fun i hi => List.mem_range.mp hi, pure_bind, top, pure_bind, plain]
  apply Follows.bind (g := sample) (nextF32_follows bound)
  rintro draw -
  by_cases explores : draw < epsilon ∧ min k scores.length < (bestFirst scores).length
  · rw [if_pos explores]
    have picks : greedyAfter scores (min k scores.length) epsilon draw =
        substituted (bestFirst scores) best (min k scores.length) := funext fun _ => if_pos explores
    have slots : 0 < min k scores.length := lt_min pos (List.length_pos_iff.mpr some')
    have full : best.length = min k scores.length := by
      rw [List.length_take, min_eq_left short]
    have fewer : (bestFirst scores).length ≤ bound := by rwa [length_bestFirst]
    have follows := substitute_follows slots short full fewer
    rw [← picks] at follows
    apply follows.bind (g := finish)
    rintro picked ⟨r, rfl⟩
    rw [picks, mapM_selections _ (substituted_candidate subset _ r)]
    exact follows_pure _ bound
  · rw [if_neg explores, pure_bind]
    have picks : sample draw = fun r => (selectionsOf scores (best, none), r) := by
      funext r
      simp only [sample, finish, greedyAfter, if_neg explores]
      rfl
    rw [mapM_selections (best, none) subset, picks]
    exact follows_pure _ bound

theorem samplePaths_follows (scores : List F) (k : ℕ) (policy : ExplorationPolicy F)
    (config : LearningConfig F) : Follows (samplePaths scores k policy config)
      (OpenNtl.samplePaths scores k policy config) scores.length := by
  by_cases nothing : scores.isEmpty = true ∨ k = 0
  · have checked : samplePaths scores k policy config = pure [] := if_pos nothing
    have plain : OpenNtl.samplePaths scores k policy config = fun r => ([], r) := by
      funext r
      exact if_pos nothing
    rw [checked, plain]
    exact follows_pure [] _
  · have pos : 0 < k := Nat.pos_of_ne_zero fun zero => nothing (Or.inr zero)
    have some' : scores ≠ [] := fun none => nothing (Or.inl (List.isEmpty_iff.mpr none))
    let order (out : List (Selection F)) (r : Rng) : List (Selection F) × Rng :=
      (sortBy (fun a b => Scalar.partialCmp b.score a.score) out, r)
    rw [samplePaths, if_neg nothing]
    cases policy with
    | softmax =>
      have plain : OpenNtl.samplePaths scores k .softmax config = fun r =>
          order (OpenNtl.softmaxSample scores config.effectiveTemperature (argmax scores)
            (min k scores.length) (List.range scores.length) r).1
          (OpenNtl.softmaxSample scores config.effectiveTemperature (argmax scores)
            (min k scores.length) (List.range scores.length) r).2 := by
        funext r
        exact if_neg nothing
      have inside : ∀ i ∈ List.range scores.length, i < scores.length :=
        fun i hi => List.mem_range.mp hi
      rw [plain]
      apply Follows.bind (g := order) (softmaxSample_follows _ _ _ inside List.length_range.le)
      exact fun out _ => follows_pure _ _
    | epsilonGreedy epsilon =>
      have plain : OpenNtl.samplePaths scores k (.epsilonGreedy epsilon) config = fun r =>
          order (OpenNtl.epsilonGreedySample scores k epsilon r).1
            (OpenNtl.epsilonGreedySample scores k epsilon r).2 := by
        funext r
        exact if_neg nothing
      rw [plain]
      apply Follows.bind (g := order) (epsilonGreedySample_follows pos some' epsilon le_rfl)
      exact fun out _ => follows_pure _ _

end Follow

end Drawing
end OpenNtl
