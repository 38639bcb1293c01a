import Mathlib.Data.List.Forall2
import Mathlib.Data.List.Perm.Basic
import MicroFrontends.Proofs.Outcome

/-!
# Lists of steps that can fail

`mapM` and `foldlM` in `Option`, and of outcomes whose errors do not matter. Lists whose elements
correspond, in the sense of `List.Forall₂`, give the same if corresponding elements do, and so do
lists of the same elements in another order if the steps commute (`foldlM_perm`).
-/

namespace MicroFrontends

variable {α β γ σ : Type}

theorem mapM_option_cons (f : α → Option β) (a : α) (l : List α) :
    (a :: l).mapM f = (f a).bind fun b => (l.mapM f).map (b :: ·) := by
  rw [List.mapM_cons]
  cases f a with
  | none => rfl
  | some b => cases l.mapM f <;> rfl

theorem mapM_eq_some_iff {f : α → Option β} {l : List α} {l' : List β} :
    l.mapM f = some l' ↔ List.Forall₂ (fun a b => f a = some b) l l' := by
  induction l generalizing l' with
  | nil => simp [eq_comm]
  | cons a l ih =>
    rw [mapM_option_cons, List.forall₂_cons_left_iff]
    cases f a with
    | none => simp
    | some b => simp [← ih, eq_comm]

theorem mapM_append_cons {f : α → Option β} {l l' : List α} {a : α} {bs : List β} :
    (l ++ a :: l').mapM f = some bs ↔ ∃ bs₁ b bs₂, l.mapM f = some bs₁ ∧ f a = some b ∧
      l'.mapM f = some bs₂ ∧ bs = bs₁ ++ b :: bs₂ := by
  induction l generalizing bs with
  | nil =>
    rw [List.nil_append, mapM_option_cons]
    simp only [Option.bind_eq_some_iff, Option.map_eq_some_iff]
    constructor
    · rintro ⟨b, hb, bs₂, hbs₂, rfl⟩
      exact ⟨[], b, bs₂, rfl, hb, hbs₂, rfl⟩
    · rintro ⟨_, b, bs₂, ⟨⟩, hb, hbs₂, rfl⟩
      exact ⟨b, hb, bs₂, hbs₂, rfl⟩
  | cons a₁ l ih =>
    rw [List.cons_append, mapM_option_cons]
    simp only [Option.bind_eq_some_iff, Option.map_eq_some_iff, ih, mapM_option_cons]
    constructor
    · rintro ⟨b₁, hb₁, _, ⟨bs₁, b, bs₂, hbs₁, hb, hbs₂, rfl⟩, rfl⟩
      exact ⟨b₁ :: bs₁, b, bs₂, ⟨b₁, hb₁, bs₁, hbs₁, rfl⟩, hb, hbs₂, rfl⟩
    · rintro ⟨_, b, bs₂, ⟨b₁, hb₁, bs₁, hbs₁, rfl⟩, hb, hbs₂, rfl⟩
      exact ⟨b₁, hb₁, _, ⟨bs₁, b, bs₂, hbs₁, hb, hbs₂, rfl⟩, rfl⟩

theorem exists_of_forall₂ {R : α → β → Prop} {l : List α} {l' : List β} (h : List.Forall₂ R l l')
    {b : β} (hb : b ∈ l') : ∃ a ∈ l, R a b := by
  induction h with
  | nil => cases hb
  | cons hab _ ih =>
    rcases List.mem_cons.mp hb with rfl | hb
    · exact ⟨_, List.mem_cons_self, hab⟩
    · obtain ⟨a, ha, hab⟩ := ih hb
      exact ⟨a, List.mem_cons_of_mem _ ha, hab⟩

theorem exists_of_mem_mapM {f : α → Option β} {l : List α} {l' : List β} (h : l.mapM f = some l')
    {b : β} (hb : b ∈ l') : ∃ a ∈ l, f a = some b := exists_of_forall₂ (mapM_eq_some_iff.mp h) hb

theorem mapM_congr {R : α → γ → Prop} {f : α → Option β} {g : γ → Option β} {l : List α}
    {l' : List γ} (h : List.Forall₂ R l l') (hfg : ∀ a ∈ l, ∀ c, R a c → f a = g c) :
    l.mapM f = l'.mapM g := by
  induction h with
  | nil => rfl
  | cons hac h ih =>
    rw [mapM_option_cons, mapM_option_cons, hfg _ List.mem_cons_self _ hac,
      ih fun a ha => hfg a (List.mem_cons_of_mem _ ha)]

theorem foldlM_congr {R : α → γ → Prop} {f : σ → α → Option σ} {g : σ → γ → Option σ} {l : List α}
    {l' : List γ} (h : List.Forall₂ R l l') (hfg : ∀ a ∈ l, ∀ c, R a c → ∀ s, f s a = g s c) (s : σ) :
    l.foldlM f s = l'.foldlM g s := by
  induction h generalizing s with
  | nil => rfl
  | cons hac h ih =>
    simp only [List.foldlM_cons, hfg _ List.mem_cons_self _ hac,
      ih fun a ha => hfg a (List.mem_cons_of_mem _ ha)]

/-- Collecting results, the last one first. -/
theorem foldlM_push (f : α → Option β) (l : List α) :
    l.foldlM (fun acc a => (f a).map (· :: acc)) [] = (l.mapM f).map List.reverse := by
  rw [List.mapM_eq_reverse_foldlM_cons]
  show _ = Option.map List.reverse (Option.map List.reverse _)
  rw [Option.map_map]
  simp only [Function.comp_def, List.reverse_reverse, Option.map_id']
  rfl

theorem toOption_mapM {ε : Type} (f : α → Except ε β) (l : List α) :
    (l.mapM f).toOption = l.mapM fun a => (f a).toOption := by
  induction l with
  | nil => rfl
  | cons a l ih =>
    rw [List.mapM_cons, mapM_option_cons, ← ih, Except.toOption_bind]
    cases f a with
    | error e => rfl
    | ok b => cases l.mapM f <;> rfl

/-- What each step preserves holds of the result. -/
theorem foldlM_invariant {ε : Type} {f : σ → α → Except ε σ} {P : σ → Prop} {l : List α}
    (h : ∀ s, P s → ∀ a ∈ l, ∀ s', f s a = .ok s' → P s') {s s' : σ} (hs : P s)
    (hl : l.foldlM f s = .ok s') : P s' := by
  induction l generalizing s with
  | nil => cases hl; exact hs
  | cons a l ih =>
    rw [List.foldlM_cons] at hl
    obtain ⟨s₁, hstep, hl⟩ := Except.bind_eq_ok.mp hl
    exact ih (fun s hs a ha => h s hs a (List.mem_cons_of_mem _ ha))
      (h s hs a List.mem_cons_self s₁ hstep) hl

theorem toOption_foldlM {ε : Type} (f : σ → α → Except ε σ) (l : List α) (s : σ) :
    (l.foldlM f s).toOption = l.foldlM (fun s a => (f s a).toOption) s := by
  induction l generalizing s with
  | nil => rfl
  | cons a l ih =>
    rw [List.foldlM_cons, List.foldlM_cons, Except.toOption_bind]
    cases f s a with
    | error e => rfl
    | ok s' => exact ih s'

theorem isSome_mapM {f : α → Option β} {l : List α} :
    (l.mapM f).isSome ↔ ∀ a ∈ l, (f a).isSome := by
  induction l with
  | nil => simp
  | cons a l ih =>
    rw [mapM_option_cons, List.forall_mem_cons, ← ih]
    cases f a with
    | none => simp
    | some b => simp

/-- A list in another order has its results in another order. -/
theorem perm_mapM {f : α → Option β} {l l' : List α} (h : l.Perm l') {bs : List β}
    (hb : l.mapM f = some bs) : ∃ bs', l'.mapM f = some bs' ∧ bs.Perm bs' := by
  obtain ⟨bs', hbs', hperm⟩ := List.perm_comp_forall₂ h.symm (mapM_eq_some_iff.mp hb)
  exact ⟨bs', mapM_eq_some_iff.mpr hbs', hperm.symm⟩

theorem foldlM_option_eq_foldl (f : σ → α → Option σ) (l : List α) (s : σ) :
    l.foldlM f s = l.foldl (fun o a => o.bind (f · a)) (some s) := by
  have hnone (l : List α) : l.foldl (fun o a => o.bind (f · a)) none = none := by
    induction l with
    | nil => rfl
    | cons a l ih => exact ih
  induction l generalizing s with
  | nil => rfl
  | cons a l ih =>
    rw [List.foldlM_cons, List.foldl_cons, Option.bind_some]
    cases f s a with
    | none => exact (hnone l).symm
    | some s' => exact ih s'

/-- Steps that commute may be taken in any order. -/
theorem foldlM_perm {f : σ → α → Option σ} {l l' : List α} (h : l.Perm l')
    (hcomm : ∀ a ∈ l, ∀ b ∈ l, a ≠ b → ∀ s, (f s a).bind (f · b) = (f s b).bind (f · a)) (s : σ) :
    l.foldlM f s = l'.foldlM f s := by
  rw [foldlM_option_eq_foldl, foldlM_option_eq_foldl]
  refine h.foldl_eq' (fun a ha b hb o => ?_) _
  by_cases hab : a = b
  · rw [hab]
  · cases o with
    | none => rfl
    | some s => exact hcomm a ha b hb hab s

/-- A step may be replaced by one that gets as far. -/
theorem foldlM_replace {f : σ → α → Option σ} {l l' : List α} {a b : α}
    (hab : ∀ s s', f s a = some s' → f s b = some s') {s s' : σ}
    (h : (l ++ a :: l').foldlM f s = some s') : (l ++ b :: l').foldlM f s = some s' := by
  simp only [List.foldlM_append, List.foldlM_cons, Option.bind_eq_bind,
    Option.bind_eq_some_iff] at h ⊢
  obtain ⟨s₁, hs₁, s₂, hs₂, h⟩ := h
  exact ⟨s₁, hs₁, s₂, hab _ _ hs₂, h⟩

end MicroFrontends
