import Mathlib.Tactic.Common

/-!
# What one party sees of a shared machine

A machine takes inputs one after another, and gives an output for each. One party owns some of the
inputs, and sees the outputs of these. If no input of the others can be told from none, and its own
inputs do the same in states it cannot tell apart, then what it sees of a run is the run with the
inputs of the others removed.
-/

namespace Machine

variable {σ ι ω : Type} {step : σ → ι → ω × σ} {mine : ι → Bool} {agree : σ → σ → Prop}

/-- The outputs of a run, each beside its input. -/
def outputs (step : σ → ι → ω × σ) : σ → List ι → List (ι × ω)
  | _, [] => []
  | s, i :: is => (i, (step s i).1) :: outputs step (step s i).2 is

/-- The state a run ends in. -/
def final (step : σ → ι → ω × σ) (s : σ) (is : List ι) : σ := is.foldl (fun s i => (step s i).2) s

/-- A relation of states the party cannot tell apart. -/
structure Unwinds (step : σ → ι → ω × σ) (mine : ι → Bool) (agree : σ → σ → Prop) : Prop where
  /-- Its own inputs give the same output in both. -/
  output : ∀ {s s' i}, mine i = true → agree s s' → (step s i).1 = (step s' i).1
  /-- Its own inputs lead to states it cannot tell apart. -/
  keep : ∀ {s s' i}, mine i = true → agree s s' → agree (step s i).2 (step s' i).2
  /-- An input of another leads nowhere it can see. -/
  skip : ∀ {s s' i}, mine i = false → agree s s' → agree (step s i).2 s'

/-- **Purging.** The party sees the run with the inputs of the others removed. -/
lemma Unwinds.purge (h : Unwinds step mine agree) {s s' : σ} (hs : agree s s') (is : List ι) :
    (outputs step s is).filter (fun x => mine x.1) = outputs step s' (is.filter mine) ∧
      agree (final step s is) (final step s' (is.filter mine)) := by
  induction is generalizing s s' with
  | nil => exact ⟨rfl, hs⟩
  | cons i is ih =>
    cases hi : mine i with
    | true =>
      obtain ⟨houtputs, hfinal⟩ := ih (h.keep hi hs)
      rw [outputs, List.filter_cons_of_pos (by exact hi), List.filter_cons_of_pos hi, outputs,
        houtputs, h.output hi hs]
      exact ⟨rfl, hfinal⟩
    | false =>
      obtain ⟨houtputs, hfinal⟩ := ih (h.skip hi hs)
      rw [outputs, List.filter_cons_of_neg (by simp [hi]), List.filter_cons_of_neg (by simp [hi])]
      exact ⟨houtputs, hfinal⟩

end Machine
