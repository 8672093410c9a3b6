import Mathlib
import TaskGen.Requirement

/-!
Pipelines that are the same share a class.  Being the same is symmetric and transitive.  It is
not reflexive on all values, because a double that is no number differs from itself.
-/

namespace TaskGen
namespace Json

theorem Number.same_comm (a b : Number) : a.same b = b.same a := by
  cases a with
  | int n =>
    cases b with
    | int m => exact Bool.beq_comm
    | float y => rfl
  | float x =>
    cases b with
    | int m => rfl
    | float y =>
      rw [Bool.eq_iff_iff]
      simp only [Number.same, Float.beq_iff_ne_nan_and_eq]
      grind

theorem Number.same_trans {a b c : Number} (hab : a.same b = true) (hbc : b.same c = true) :
    a.same c = true := by
  cases a <;> cases b <;> cases c <;>
    simp only [Number.same, Bool.false_eq_true] at hab hbc ⊢
  · rw [beq_iff_eq] at hab hbc ⊢
    exact hab.trans hbc
  · -- Two of three doubles that agree may be zeros of different signs.
    rw [Float.beq_iff_ne_nan_and_eq] at hab hbc ⊢
    grind

theorem Value.same_comm (v : Value) : ∀ w, v.same w = w.same v := by
  refine @Value.rec (fun v => ∀ w, v.same w = w.same v)
    (fun as => ∀ bs, sameItems as bs = sameItems bs as)
    (fun as => ∀ bs, sameMembers as bs = sameMembers bs as)
    (fun p => ∀ w, p.2.same w = w.same p.2) ?null ?bool ?number ?string ?array ?object
    ?noItems ?item ?noMembers ?member ?pair v
  case null => intro w; cases w <;> rfl
  case bool =>
    intro a w
    cases w with
    | bool b => exact Bool.beq_comm
    | _ => rfl
  case number =>
    intro a w
    cases w with
    | number b => exact Number.same_comm a b
    | _ => rfl
  case string =>
    intro a w
    cases w with
    | string b => exact Bool.beq_comm
    | _ => rfl
  case array =>
    intro as ih w
    cases w with
    | array bs => exact ih bs
    | _ => rfl
  case object =>
    intro as ih w
    cases w with
    | object bs => exact ih bs
    | _ => rfl
  case noItems => intro bs; cases bs <;> rfl
  case item =>
    intro a as ha has bs
    cases bs with
    | nil => rfl
    | cons b bs => rw [sameItems, sameItems, ha, has]
  case noMembers => intro bs; cases bs <;> rfl
  case member =>
    intro p as hp has bs
    cases bs with
    | nil => rfl
    | cons q bs => rw [sameMembers, sameMembers, hp, has, Bool.beq_comm]
  case pair => exact fun k a ha => ha

theorem Value.same_trans (v : Value) :
    ∀ w u, v.same w = true → w.same u = true → v.same u = true := by
  refine @Value.rec (fun v => ∀ w u, v.same w = true → w.same u = true → v.same u = true)
    (fun as => ∀ bs cs, sameItems as bs = true → sameItems bs cs = true → sameItems as cs = true)
    (fun as => ∀ bs cs,
      sameMembers as bs = true → sameMembers bs cs = true → sameMembers as cs = true)
    (fun p => ∀ w u, p.2.same w = true → w.same u = true → p.2.same u = true)
    ?null ?bool ?number ?string ?array ?object
    ?noItems ?item ?noMembers ?member ?pair v
  case null =>
    intro w u hvw hwu
    cases w with
    | null => exact hwu
    | _ => exact absurd hvw Bool.false_ne_true
  case bool =>
    intro a w u hvw hwu
    cases w with
    | bool b =>
      have hab : a = b := eq_of_beq hvw
      rw [hab]
      exact hwu
    | _ => exact absurd hvw Bool.false_ne_true
  case number =>
    intro a w u hvw hwu
    cases w with
    | number b =>
      cases u with
      | number c => exact Number.same_trans hvw hwu
      | _ => exact absurd hwu Bool.false_ne_true
    | _ => exact absurd hvw Bool.false_ne_true
  case string =>
    intro a w u hvw hwu
    cases w with
    | string b =>
      have hab : a = b := eq_of_beq hvw
      rw [hab]
      exact hwu
    | _ => exact absurd hvw Bool.false_ne_true
  case array =>
    intro as ih w u hvw hwu
    cases w with
    | array bs =>
      cases u with
      | array cs => exact ih bs cs hvw hwu
      | _ => exact absurd hwu Bool.false_ne_true
    | _ => exact absurd hvw Bool.false_ne_true
  case object =>
    intro as ih w u hvw hwu
    cases w with
    | object bs =>
      cases u with
      | object cs => exact ih bs cs hvw hwu
      | _ => exact absurd hwu Bool.false_ne_true
    | _ => exact absurd hvw Bool.false_ne_true
  case noItems =>
    intro bs cs hab hbc
    cases bs with
    | nil => exact hbc
    | cons b bs => exact absurd hab Bool.false_ne_true
  case item =>
    intro a as ha has bs cs hab hbc
    cases bs with
    | nil => exact absurd hab Bool.false_ne_true
    | cons b bs =>
      cases cs with
      | nil => exact absurd hbc Bool.false_ne_true
      | cons c cs =>
        rw [sameItems, Bool.and_eq_true] at hab hbc ⊢
        exact ⟨ha b c hab.1 hbc.1, has bs cs hab.2 hbc.2⟩
  case noMembers =>
    intro bs cs hab hbc
    cases bs with
    | nil => exact hbc
    | cons b bs => exact absurd hab Bool.false_ne_true
  case member =>
    intro p as hp has bs cs hab hbc
    cases bs with
    | nil => exact absurd hab Bool.false_ne_true
    | cons q bs =>
      cases cs with
      | nil => exact absurd hbc Bool.false_ne_true
      | cons q' cs =>
        simp only [sameMembers, Bool.and_eq_true, beq_iff_eq] at hab hbc ⊢
        exact ⟨⟨hab.1.1.trans hbc.1.1, hp _ _ hab.1.2 hbc.1.2⟩, has bs cs hab.2 hbc.2⟩
  case pair => exact fun k a ha => ha

end Json

theorem ConfiguredStage.same_comm (a b : ConfiguredStage) : a.same b = b.same a := by
  have hoptions := Json.Value.same_comm (.object a.options) (.object b.options)
  rw [same, same, Bool.beq_comm]
  exact congrArg _ hoptions

theorem ConfiguredStage.same_trans {a b c : ConfiguredStage} (hab : a.same b = true)
    (hbc : b.same c = true) : a.same c = true := by
  simp only [same, Bool.and_eq_true, beq_iff_eq] at hab hbc ⊢
  refine ⟨hab.1.trans hbc.1, ?_⟩
  exact Json.Value.same_trans (.object a.options) (.object b.options) (.object c.options)
    hab.2 hbc.2

theorem samePipeline_comm (as bs : List ConfiguredStage) :
    samePipeline as bs = samePipeline bs as := by
  induction as generalizing bs with
  | nil => cases bs <;> rfl
  | cons a as ih =>
    cases bs with
    | nil => rfl
    | cons b bs => rw [samePipeline, samePipeline, a.same_comm, ih]

theorem samePipeline_trans {as bs cs : List ConfiguredStage} (hab : samePipeline as bs = true)
    (hbc : samePipeline bs cs = true) : samePipeline as cs = true := by
  induction as generalizing bs cs with
  | nil =>
    cases bs with
    | nil => exact hbc
    | cons b bs => cases hab
  | cons a as ih =>
    cases bs with
    | nil => cases hab
    | cons b bs =>
      cases cs with
      | nil => cases hbc
      | cons c cs =>
        rw [samePipeline, Bool.and_eq_true] at hab hbc ⊢
        exact ⟨ConfiguredStage.same_trans hab.1 hbc.1, ih hab.2 hbc.2⟩

theorem eq_nil_of_samePipeline_nil {as : List ConfiguredStage}
    (h : samePipeline as [] = true) : as = [] := by
  cases as with
  | nil => rfl
  | cons a as => cases h

end TaskGen
