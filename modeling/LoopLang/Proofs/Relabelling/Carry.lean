
namespace LoopLang

variable {ε α β γ δ : Type}

def carry (e : ε → ε) (act : α → β) : Except ε α → Except ε β
  | .ok a => .ok (act a)
  | .error d => .error (e d)

theorem ok_of_carry {e : ε → ε} {act : α → β} {x : Except ε α} {b : β}
    (h : carry e act x = .ok b) : ∃ a, x = .ok a ∧ act a = b := by
  cases x with
  | error d => cases h
  | ok a =>
    cases h
    exact ⟨a, rfl, rfl⟩

theorem carry_bind {e : ε → ε} {act : α → β} {act' : γ → δ} {x : Except ε α} {y : Except ε β}
    {g : α → Except ε γ} {h : β → Except ε δ} (first : y = carry e act x)
    (rest : ∀ a, h (act a) = carry e act' (g a)) : (y >>= h) = carry e act' (x >>= g) := by
  subst first
  cases x with
  | error d => rfl
  | ok a => exact rest a

theorem carry_mapM {e : ε → ε} {act : α → β} {act' : γ → δ} {g : α → Except ε γ}
    {h : β → Except ε δ} (each : ∀ a, h (act a) = carry e act' (g a)) (as : List α) :
    (as.map act).mapM h = carry e (List.map act') (as.mapM g) := by
  induction as with
  | nil => rfl
  | cons a as ih =>
    rw [List.map_cons, List.mapM_cons, List.mapM_cons]
    refine carry_bind (each a) fun c => ?_
    refine carry_bind ih fun cs => ?_
    rfl

theorem carry_mapM_id {e : ε → ε} {act : α → β} {g : α → Except ε γ} {h : β → Except ε γ}
    (each : ∀ a, h (act a) = carry e id (g a)) (as : List α) :
    (as.map act).mapM h = carry e id (as.mapM g) := by
  rw [carry_mapM each as, List.map_id_fun]

theorem carry_foldlM {e : ε → ε} {act : α → β} {step : γ → α → Except ε γ}
    {step' : γ → β → Except ε γ} (each : ∀ c a, step' c (act a) = carry e id (step c a))
    (as : List α) (c : γ) : (as.map act).foldlM step' c = carry e id (as.foldlM step c) := by
  induction as generalizing c with
  | nil => rfl
  | cons a as ih =>
    rw [List.map_cons, List.foldlM_cons, List.foldlM_cons]
    exact carry_bind (each c a) ih

theorem carry_mapError {e : ε → ε} {act : α → β} {w w' : ε → ε} (same : ∀ d, w' (e d) = e (w d))
    (x : Except ε α) : (carry e act x).mapError w' = carry e act (x.mapError w) := by
  cases x with
  | error d => exact congrArg Except.error (same d)
  | ok a => rfl

end LoopLang
