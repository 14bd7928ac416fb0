import Mathlib
import TouchIntent.Gesture.Model
import TouchIntent.Proofs.Gesture.Density

/-!
# The best path

The dynamic program keeps one survivor for each state: the best path that ends there. In exact
arithmetic, and as long as no weight is infinite, the survivor has the greatest score of all paths
into its state, and of those that share it the survivor is the least when paths are compared from
their ends backwards. What holds of every survivor holds of the path that is picked in the end.
-/

namespace TouchIntent

/-- What choosing the best of a list finds, given the best so far. -/
theorem foldl_best_spec {n : Nat} (score : Fin n → EReal) (candidates : List (Fin n))
    (sorted : candidates.Pairwise (· < ·)) (start : Fin n) (first : ∀ i ∈ candidates, start ≤ i) :
    ∀ i ∈ start :: candidates,
      score i ≤ score (candidates.foldl (fun b i => if score b < score i then i else b) start) ∧
        (score i = score (candidates.foldl (fun b i => if score b < score i then i else b) start) →
          candidates.foldl (fun b i => if score b < score i then i else b) start ≤ i) := by
  induction candidates generalizing start with
  | nil =>
    intro i member
    rw [List.mem_singleton.1 member]
    exact ⟨le_refl _, fun _ => le_refl _⟩
  | cons x rest ih =>
    obtain ⟨after, sorted⟩ := List.pairwise_cons.1 sorted
    rw [List.foldl_cons]
    by_cases better : score start < score x
    · rw [if_pos better]
      have spec := ih sorted x fun i member => (after i member).le
      intro i member
      rcases List.mem_cons.1 member with rfl | member
      · have best := (spec x List.mem_cons_self).1
        exact ⟨(better.trans_le best).le, fun same => absurd (better.trans_le best) same.not_lt⟩
      · exact spec i member
    · rw [if_neg better]
      have spec := ih sorted start fun i member => first i (List.mem_cons_of_mem _ member)
      intro i member
      rcases List.mem_cons.1 member with rfl | member
      · exact spec i List.mem_cons_self
      · rcases List.mem_cons.1 member with rfl | member
        · -- A later candidate of the same score is not taken.
          have kept := spec start List.mem_cons_self
          refine ⟨(not_lt.1 better).trans kept.1, fun same => ?_⟩
          have tie : score start = score i := le_antisymm (same ▸ kept.1) (not_lt.1 better)
          exact (kept.2 (tie.trans same)).trans (first i List.mem_cons_self)
        · exact spec i (List.mem_cons_of_mem _ member)

/-- The choice has the greatest score, and is the first that has it. -/
theorem firstBest_spec {n : Nat} (inhabited : 0 < n) (score : Fin n → EReal) (i : Fin n) :
    score i ≤ score (firstBest inhabited score) ∧
      (score i = score (firstBest inhabited score) → firstBest inhabited score ≤ i) := by
  have sorted : (List.finRange n).Pairwise (· < ·) := List.pairwise_lt_finRange n
  have spec := foldl_best_spec score (List.finRange n) sorted ⟨0, inhabited⟩
    fun i _ => Nat.zero_le i.val
  exact spec i (List.mem_cons_of_mem _ (List.mem_finRange i))

namespace Trellis

section Score

variable {R σ : Type} [Scalar R] {n : Nat} (t : Trellis R n) (emit : σ → Fin n → R)

/-- One more state adds its step, from the state that the path has come to, and its emission. -/
theorem scoreFrom_concat (first : σ) (state : Fin n) (score : R) (path : List (σ × Fin n))
    {i : Fin n} (last : (((first, state) :: path).getLast?).map Prod.snd = some i)
    (next : σ) (j : Fin n) :
    t.scoreFrom emit state score (path ++ [(next, j)]) =
      t.scoreFrom emit state score path + (t.step.get i).get j + emit next j := by
  induction path generalizing first state score with
  | nil =>
    obtain rfl : state = i := by simpa using last
    rfl
  | cons p rest ih =>
    obtain ⟨s, k⟩ := p
    rw [List.getLast?_cons_cons] at last
    exact ih s k _ last

/-- The score of a path that is given from its end backwards, with one more state. -/
theorem pathScore_cons {seen : List σ} {i : Fin n} {states : List (Fin n)}
    (length : (i :: states).length = seen.length) (next : σ) (j : Fin n) :
    t.pathScore emit ((seen ++ [next]).zip (j :: i :: states).reverse) =
      t.pathScore emit (seen.zip (i :: states).reverse) + (t.step.get i).get j + emit next j := by
  have zipped : (seen ++ [next]).zip (j :: i :: states).reverse =
      seen.zip (i :: states).reverse ++ [(next, j)] := by
    rw [List.reverse_cons, List.zip_append (by simpa using length.symm)]
    rfl
  have last : (seen.zip (i :: states).reverse).getLast?.map Prod.snd = some i := by
    rw [← List.getLast?_map, List.map_snd_zip (by simpa using length.le)]
    simp
  rw [zipped]
  cases path : seen.zip (i :: states).reverse with
  | nil =>
    rw [path] at last
    cases last
  | cons p rest =>
    rw [path] at last
    exact t.scoreFrom_concat emit p.1 p.2 _ rest last next j

end Score

section Optimality

variable {σ : Type} {n : Nat} (t : Trellis EReal n) (emit : σ → Fin n → EReal)

/-- A path through what was seen is at least as good as another, both given from their ends
backwards: its score is greater, or the same and it comes first. -/
def Prefers (seen : List σ) (chosen other : List (Fin n)) : Prop :=
  t.pathScore emit (seen.zip other.reverse) < t.pathScore emit (seen.zip chosen.reverse) ∨
    t.pathScore emit (seen.zip other.reverse) = t.pathScore emit (seen.zip chosen.reverse) ∧
      chosen ≤ other

/-- The survivor of a state is the best of the paths that end there. -/
structure Optimal (seen : List σ) (j : Fin n) (survivor : Survivor EReal n) : Prop where
  ends : ∃ before, survivor.states = j :: before
  length : survivor.states.length = seen.length
  score : survivor.score = t.pathScore emit (seen.zip survivor.states.reverse)
  finite : Scalar.isFinite survivor.score
  best : ∀ before, (j :: before).length = seen.length →
    t.Prefers emit seen survivor.states (j :: before)

variable {t emit}

/-- Every state has an optimal survivor at the first observation. -/
theorem optimal_enter {first : σ} (starts : ∀ j, Scalar.isFinite (t.start.get j))
    (emissions : ∀ j, Scalar.isFinite (emit first j)) (j : Fin n) :
    t.Optimal emit [first] j ((t.enterSurvivors emit first).get j) := by
  have entered : (t.enterSurvivors emit first).get j = ⟨t.start.get j + emit first j, [j]⟩ := by
    simp [enterSurvivors, Vector.get_eq_getElem]
  rw [entered]
  refine ⟨⟨[], rfl⟩, rfl, rfl, Scalar.exact_isFinite_add (starts j) (emissions j), ?_⟩
  intro before length
  obtain rfl : before = [] := by simpa using length
  exact Or.inr ⟨rfl, le_refl _⟩

/-- One observation later every state has an optimal survivor again. -/
theorem optimal_advance {seen : List σ} {survivors : Vector (Survivor EReal n) n}
    (inhabited : 0 < n) (optimal : ∀ i, t.Optimal emit seen i (survivors.get i)) {next : σ}
    (steps : ∀ i j, Scalar.isFinite ((t.step.get i).get j))
    (emissions : ∀ j, Scalar.isFinite (emit next j)) (j : Fin n) :
    t.Optimal emit (seen ++ [next]) j
      ((t.advanceSurvivors inhabited emit survivors next).get j) := by
  obtain ⟨i, chosen⟩ : ∃ i, i = firstBest inhabited
      fun i => (survivors.get i).score + (t.step.get i).get j := ⟨_, rfl⟩
  have advanced : (t.advanceSurvivors inhabited emit survivors next).get j =
      ⟨(survivors.get i).score + (t.step.get i).get j + emit next j,
        j :: (survivors.get i).states⟩ := by
    simp [advanceSurvivors, Vector.get_eq_getElem, chosen]
  rw [advanced]
  obtain ⟨before, states⟩ := (optimal i).ends
  have length := (optimal i).length
  have score : (survivors.get i).score + (t.step.get i).get j + emit next j =
      t.pathScore emit ((seen ++ [next]).zip (j :: (survivors.get i).states).reverse) := by
    rw [states] at length ⊢
    rw [t.pathScore_cons emit length, ← states, (optimal i).score]
  refine ⟨⟨_, rfl⟩, by simpa using length, score, ?_, ?_⟩
  · exact Scalar.exact_isFinite_add
      (Scalar.exact_isFinite_add (optimal i).finite (steps i j)) (emissions j)
  · intro others long
    cases others with
    | nil =>
      rw [states] at length
      simp [← length] at long
    | cons k rest =>
      have long : (k :: rest).length = seen.length := by simpa using long
      have greatest := firstBest_spec inhabited
        (fun i => (survivors.get i).score + (t.step.get i).get j) k
      rw [← chosen] at greatest
      rw [Prefers, t.pathScore_cons emit long, ← score]
      rcases (optimal k).best rest long with less | ⟨same, least⟩
      · -- The path to the predecessor can be improved, so the whole path can.
        rw [← (optimal k).score] at less
        have less := Scalar.exact_add_lt_add less (steps k j)
        exact Or.inl (Scalar.exact_add_lt_add (less.trans_le greatest.1) (emissions j))
      · rw [← (optimal k).score] at same
        rw [same]
        rcases greatest.1.lt_or_eq with less | tie
        · exact Or.inl (Scalar.exact_add_lt_add less (emissions j))
        · refine Or.inr ⟨by rw [tie], List.cons_le_cons _ ?_⟩
          rcases (greatest.2 tie).lt_or_eq with earlier | rfl
          · rw [states]
            exact (List.cons_lt_cons_iff.2 (Or.inl earlier)).le
          · exact least

/-- After any number of observations every state has an optimal survivor. -/
theorem optimal_foldl {seen rest : List σ} {survivors : Vector (Survivor EReal n) n}
    (inhabited : 0 < n) (optimal : ∀ i, t.Optimal emit seen i (survivors.get i))
    (steps : ∀ i j, Scalar.isFinite ((t.step.get i).get j))
    (emissions : ∀ s ∈ rest, ∀ j, Scalar.isFinite (emit s j)) (j : Fin n) :
    t.Optimal emit (seen ++ rest) j
      ((rest.foldl (t.advanceSurvivors inhabited emit) survivors).get j) := by
  induction rest generalizing seen survivors with
  | nil => simpa using optimal j
  | cons next rest ih =>
    have advanced := optimal_advance inhabited optimal steps (emissions next List.mem_cons_self)
    have later := ih advanced fun s member => emissions s (List.mem_cons_of_mem _ member)
    rwa [List.append_assoc] at later

/-- The best of the optimal survivors is preferred to every path. -/
theorem optimal_choice {seen : List σ} {survivors : Vector (Survivor EReal n) n}
    (inhabited : 0 < n) (optimal : ∀ j, t.Optimal emit seen j (survivors.get j))
    {last : Fin n} (chosen : last = firstBest inhabited fun j => (survivors.get j).score)
    {other : List (Fin n)} (length : other.length = seen.length) :
    t.Prefers emit seen (survivors.get last).states other := by
  obtain ⟨states, ends⟩ := (optimal last).ends
  cases other with
  | nil =>
    have long := (optimal last).length
    rw [ends, ← length] at long
    cases long
  | cons j before =>
    have greatest := firstBest_spec inhabited (fun j => (survivors.get j).score) j
    rw [← chosen] at greatest
    rw [Prefers, ← (optimal last).score]
    rcases (optimal j).best before length with less | ⟨same, least⟩
    · rw [← (optimal j).score] at less
      exact Or.inl (less.trans_le greatest.1)
    · rw [← (optimal j).score] at same
      rw [same]
      rcases greatest.1.lt_or_eq with less | tie
      · exact Or.inl less
      · refine Or.inr ⟨tie, ?_⟩
        rcases (greatest.2 tie).lt_or_eq with earlier | rfl
        · rw [ends]
          exact (List.cons_lt_cons_iff.2 (Or.inl earlier)).le
        · exact least

/-- The best path has a state for each observation, and no path through all of them is better. -/
theorem bestPath_spec (inhabited : 0 < n) {observations : List σ} (some : observations ≠ [])
    (starts : ∀ j, Scalar.isFinite (t.start.get j))
    (steps : ∀ i j, Scalar.isFinite ((t.step.get i).get j))
    (emissions : ∀ s ∈ observations, ∀ j, Scalar.isFinite (emit s j)) :
    (t.bestPath inhabited emit observations).length = observations.length ∧
      ∀ other : List (Fin n), other.length = observations.length →
        t.Prefers emit observations (t.bestPath inhabited emit observations).reverse
          other.reverse := by
  cases observations with
  | nil => exact absurd rfl some
  | cons first rest =>
    have optimal := optimal_foldl inhabited
      (optimal_enter starts (emissions first List.mem_cons_self)) steps
      fun s member => emissions s (List.mem_cons_of_mem _ member)
    rw [bestPath]
    refine ⟨?_, fun other length => ?_⟩
    · rw [List.length_reverse]
      exact (optimal _).length
    · rw [List.reverse_reverse]
      exact optimal_choice inhabited optimal rfl (by rw [List.length_reverse, length]; rfl)

end Optimality

end Trellis

namespace Model

/-- The score of a sequence of states through the samples: the logarithm of the first state's
initial probability, of the probability of each step, and of how each state emits its sample. -/
def pathScore {R : Type} [Scalar R] (m : Model R) (samples : List (Sample R))
    (path : List (Fin m.size)) : R :=
  m.trellis.pathScore m.logEmission (samples.zip path)

/-- Decoding finds a path of greatest score. Of the paths that share it, the one it finds is the
least from the end backwards: it has the lowest last state, then the lowest state before it, and so
on. -/
theorem mostLikelyPath_optimal (m : Model EReal) {samples : List (Sample EReal)}
    (some : samples ≠ []) (initial : ∀ i : Fin m.size, Scalar.isFinite (Scalar.ln m.initial[i]))
    (transitions : ∀ i j : Fin m.size, Scalar.isFinite (Scalar.ln m.transitions[i][j]))
    (emissions : ∀ sample ∈ samples, ∀ i, Scalar.isFinite (m.logEmission sample i)) :
    (m.mostLikelyPath samples).length = samples.length ∧
      ∀ other : List (Fin m.size), other.length = samples.length →
        m.pathScore samples other < m.pathScore samples (m.mostLikelyPath samples) ∨
          m.pathScore samples other = m.pathScore samples (m.mostLikelyPath samples) ∧
            (m.mostLikelyPath samples).reverse ≤ other.reverse := by
  have starts (i : Fin m.size) : Scalar.isFinite m.trellis.start[i] := by
    simpa [trellis] using initial i
  have steps (i j : Fin m.size) : Scalar.isFinite m.trellis.step[i][j] := by
    simpa [trellis] using transitions i j
  obtain ⟨length, best⟩ := Trellis.bestPath_spec m.inhabited some starts steps emissions
  refine ⟨length, fun other long => ?_⟩
  have preferred := best other long
  rwa [Trellis.Prefers, List.reverse_reverse, List.reverse_reverse] at preferred

/-- Two states at opposite corners of the surface, each as likely as the other. -/
noncomputable def diagonalSwipe : Model EReal where
  size := 2
  inhabited := Nat.two_pos
  states := #v[⟨⟨0, 0⟩, ⟨⟨1, 0⟩, ⟨0, 1⟩⟩⟩, ⟨⟨1, 1⟩, ⟨⟨1, 0⟩, ⟨0, 1⟩⟩⟩]
  transitions := #v[#v[Scalar.half, Scalar.half], #v[Scalar.half, Scalar.half]]
  initial := #v[Scalar.half, Scalar.half]
  emission := .gaussian

/-- A finger goes down in one corner and is lifted in the middle, where both states fit alike. -/
noncomputable def swipeToMiddle : List (Sample EReal) :=
  [⟨.down, 0, 0, ⟨0, 0⟩, 0, 0, 0, 0, ⟨0, 0⟩⟩,
    ⟨.up, 0, 10, ⟨Scalar.half, Scalar.half⟩, 0, 0, 0, 0, ⟨0, 0⟩⟩]

theorem mostLikelyPath_optimal_diagonalSwipe :
    (diagonalSwipe.mostLikelyPath swipeToMiddle).length = 2 ∧
      ∀ other : List (Fin 2), other.length = 2 →
        diagonalSwipe.pathScore swipeToMiddle other <
            diagonalSwipe.pathScore swipeToMiddle (diagonalSwipe.mostLikelyPath swipeToMiddle) ∨
          diagonalSwipe.pathScore swipeToMiddle other =
            diagonalSwipe.pathScore swipeToMiddle (diagonalSwipe.mostLikelyPath swipeToMiddle) ∧
            (diagonalSwipe.mostLikelyPath swipeToMiddle).reverse ≤ other.reverse := by
  have half : Scalar.isFinite (Scalar.ln (Scalar.half : EReal)) = true := by
    rw [Scalar.exact_half, Scalar.exact_ln (by norm_num)]
    exact Scalar.exact_isFinite_coe _
  have zero : Scalar.isFinite (0 : EReal) = true := Scalar.exact_isFinite_coe 0
  have one : Scalar.isFinite (1 : EReal) = true := Scalar.exact_isFinite_coe 1
  have middle : Scalar.isFinite (Scalar.half : EReal) = true := by
    rw [Scalar.exact_half]
    exact Scalar.exact_isFinite_coe _
  have dense (mean : Vec2 EReal) : (⟨mean, ⟨⟨1, 0⟩, ⟨0, 1⟩⟩⟩ : Gaussian EReal).hasDensity = true :=
    Gaussian.exact_hasDensity one_pos (by norm_num : (0 : ℝ) < 1 * 1 - 0 * 0) mean
  refine mostLikelyPath_optimal diagonalSwipe (by simp [swipeToMiddle]) ?_ ?_ ?_
  · intro i
    match i with
    | ⟨0, _⟩ | ⟨1, _⟩ => exact half
  · intro i j
    match i, j with
    | ⟨0, _⟩, ⟨0, _⟩ | ⟨0, _⟩, ⟨1, _⟩ | ⟨1, _⟩, ⟨0, _⟩ | ⟨1, _⟩, ⟨1, _⟩ => exact half
  · intro sample member i
    have finite : Scalar.isFinite sample.position.x = true ∧
        Scalar.isFinite sample.position.y = true := by
      rcases List.mem_pair.1 member with rfl | rfl
      · exact ⟨zero, zero⟩
      · exact ⟨middle, middle⟩
    match i with
    | ⟨0, _⟩ => exact Gaussian.isFinite_logDensity (dense _) zero zero finite.1 finite.2
    | ⟨1, _⟩ => exact Gaussian.isFinite_logDensity (dense _) one one finite.1 finite.2

end Model

end TouchIntent
