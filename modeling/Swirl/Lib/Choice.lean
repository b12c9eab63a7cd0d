import Mathlib.Data.List.MinMax
import Mathlib.Tactic

set_option autoImplicit false

/-! # Choosing while scanning

`choose` keeps one element of a list while it scans: another one takes its place when a pairwise
rule prefers it, and some elements end the scan. Where the rule follows a rank, the choice is best
by that rank, and it is the first or the last of the best ones.
-/

namespace Swirl.Lib

variable {α β : Type*}

/-- The element that is left after a scan, with the one that was kept before. -/
def choose (prefers : α → α → Bool) (stops : α → Bool) : List α → Option α → Option α
  | [], kept => kept
  | a :: l, kept =>
      if kept.all fun c => prefers c a then
        if stops a then some a else choose prefers stops l (some a)
      else choose prefers stops l kept

/-- The elements of the best rank in a list. -/
def IsBest [LE β] (rank : α → β) (l : List α) (a : α) : Prop := ∀ c ∈ l, rank c ≤ rank a

variable [LinearOrder β] {prefers : α → α → Bool} {stops : α → Bool} {rank : α → β}
variable {l u v : List α} {a b : α}

theorem choose_prefers (h : prefers b a = true) (hstop : stops a = false) :
    choose prefers stops (a :: l) (some b) = choose prefers stops l (some a) := by
  rw [choose, Option.all_some, if_pos h, hstop]
  rfl

theorem choose_keeps (h : prefers b a = false) :
    choose prefers stops (a :: l) (some b) = choose prefers stops l (some b) := by
  rw [choose, Option.all_some, if_neg (by rw [h]; exact Bool.false_ne_true)]

theorem choose_stops (h : prefers b a = true) (hstop : stops a = true) :
    choose prefers stops (a :: l) (some b) = some a := by
  rw [choose, Option.all_some, if_pos h, if_pos hstop]

theorem choose_first (a : α) (l : List α) : choose prefers stops (a :: l) none =
    if stops a then some a else choose prefers stops l (some a) := rfl

/-- One step, where nothing ends the scan. -/
theorem choose_cons (hgo : stops a = false) (kept : Option α) :
    choose prefers stops (a :: l) kept =
      choose prefers stops l (if kept.all (fun c => prefers c a) then some a else kept) := by
  rw [choose, hgo]
  split <;> rfl

/-- Elements that are never preferred can be left out. -/
theorem choose_filter {p : α → Bool} (hgo : ∀ c, stops c = false)
    (h : ∀ c, ∀ d ∈ l, p d = false → prefers c d = false) :
    choose prefers stops l (some a) = choose prefers stops (l.filter p) (some a) := by
  induction l generalizing a with
  | nil => rfl
  | cons d l ih =>
      have htail := fun c e he => h c e (List.mem_cons_of_mem d he)
      cases hd : p d with
      | true =>
          rw [List.filter_cons_of_pos hd]
          cases had : prefers a d with
          | true => rw [choose_prefers had (hgo d), choose_prefers had (hgo d), ih htail]
          | false => rw [choose_keeps had, choose_keeps had, ih htail]
      | false =>
          rw [List.filter_cons_of_neg (by rw [hd]; exact Bool.false_ne_true),
            choose_keeps (h a d List.mem_cons_self hd), ih htail]

/-- What is left was in the list or was kept before. -/
theorem mem_of_choose {kept : Option α} (h : choose prefers stops l kept = some a) :
    a ∈ l ∨ kept = some a := by
  induction l generalizing kept with
  | nil => exact Or.inr h
  | cons c l ih =>
      rw [choose] at h
      split at h
      · split at h
        · exact Or.inl (Option.some.inj h ▸ List.mem_cons_self)
        · rcases ih h with hmem | hkept
          · exact Or.inl (List.mem_cons_of_mem c hmem)
          · exact Or.inl (Option.some.inj hkept ▸ List.mem_cons_self)
      · exact (ih h).imp_left (List.mem_cons_of_mem c)

/-! ## A best element -/

theorem isBest_cons_of_le {c : α} (h : rank a ≤ rank b) :
    IsBest rank (b :: a :: l) c ↔ IsBest rank (b :: l) c := by
  constructor
  · intro hbest d hd
    rcases List.mem_cons.mp hd with rfl | hd
    · exact hbest d List.mem_cons_self
    · exact hbest d (List.mem_cons_of_mem _ (List.mem_cons_of_mem _ hd))
  · intro hbest d hd
    rcases List.mem_cons.mp hd with rfl | hd
    · exact hbest d List.mem_cons_self
    · rcases List.mem_cons.mp hd with rfl | hd
      · exact h.trans (hbest b List.mem_cons_self)
      · exact hbest d (List.mem_cons_of_mem _ hd)

/-- **Where the rule prefers no element to a better one**, and only best elements end the scan, a
best one is left. -/
theorem choose_isBest (hprefers : (b :: l).Pairwise fun c d =>
      (prefers c d = true → rank c ≤ rank d) ∧ (prefers c d = false → rank d ≤ rank c))
    (hstops : ∀ c ∈ l, stops c = true → IsBest rank (b :: l) c) :
    ∃ c ∈ b :: l, choose prefers stops l (some b) = some c ∧ IsBest rank (b :: l) c := by
  induction l generalizing b with
  | nil =>
      refine ⟨b, List.mem_cons_self, rfl, fun c hc => ?_⟩
      rw [List.mem_singleton.mp hc]
  | cons a l ih =>
      obtain ⟨hfirst, hrest⟩ := List.pairwise_cons.mp hprefers
      obtain ⟨hup, hdown⟩ := hfirst a List.mem_cons_self
      cases hba : prefers b a with
      | true =>
          have hle := hup hba
          cases hstop : stops a with
          | true =>
              rw [choose_stops hba hstop]
              exact ⟨a, List.mem_cons_of_mem _ List.mem_cons_self, rfl,
                hstops a List.mem_cons_self hstop⟩
          | false =>
              rw [choose_prefers hba hstop]
              obtain ⟨c, hc, hchoose, hbest⟩ := ih hrest fun c hc hstop' d hd =>
                hstops c (List.mem_cons_of_mem _ hc) hstop' d (List.mem_cons_of_mem _ hd)
              refine ⟨c, List.mem_cons_of_mem _ hc, hchoose, fun d hd => ?_⟩
              rcases List.mem_cons.mp hd with rfl | hd
              · exact hle.trans (hbest a List.mem_cons_self)
              · exact hbest d hd
      | false =>
          have hle := hdown hba
          rw [choose_keeps hba]
          obtain ⟨c, hc, hchoose, hbest⟩ := ih (List.pairwise_cons.mpr
            ⟨fun d hd => hfirst d (List.mem_cons_of_mem _ hd), hrest.tail⟩)
            fun c hc hstop => (isBest_cons_of_le hle).mp
              (hstops c (List.mem_cons_of_mem _ hc) hstop)
          refine ⟨c, ?_, hchoose, (isBest_cons_of_le hle).mpr hbest⟩
          rcases List.mem_cons.mp hc with rfl | hc
          · exact List.mem_cons_self
          · exact List.mem_cons_of_mem _ (List.mem_cons_of_mem _ hc)

/-- An element that ends the scan and is preferred to all before it is left. -/
theorem choose_of_stops {kept : Option α} (hkept : ∀ c, kept = some c → prefers c b = true)
    (hu : ∀ c ∈ u, prefers c b = true ∧ stops c = false) (hstop : stops b = true) :
    choose prefers stops (u ++ b :: v) kept = some b := by
  induction u generalizing kept with
  | nil =>
      have hall : kept.all (fun c => prefers c b) = true := by
        cases kept with
        | none => rfl
        | some c => exact hkept c rfl
      rw [List.nil_append, choose, if_pos hall, if_pos hstop]
  | cons a u ih =>
      obtain ⟨hab, hgoes⟩ := hu a List.mem_cons_self
      have htail := fun c hc => hu c (List.mem_cons_of_mem a hc)
      rw [List.cons_append, choose]
      split
      · rw [hgoes]
        exact ih (fun c hc => Option.some.inj hc ▸ hab) htail
      · exact ih hkept htail

/-! ## The first best element -/

theorem argAux_some (b a : α) : List.argAux (fun c d => rank d < rank c) (some b) a =
    if rank b < rank a then some a else some b := rfl

/-- A best element is kept to the end. -/
theorem foldl_argAux_best (h : ∀ c ∈ l, rank c ≤ rank a) :
    l.foldl (List.argAux fun c d => rank d < rank c) (some a) = some a := by
  induction l with
  | nil => rfl
  | cons c l ih =>
      have hle := h c List.mem_cons_self
      rw [List.foldl_cons, argAux_some, if_neg (not_lt.mpr hle)]
      exact ih fun d hd => h d (List.mem_cons_of_mem _ hd)

/-- The scan of `List.argmax` is the same one. -/
theorem choose_eq_foldl
    (hprefers : (b :: l).Pairwise fun c d => prefers c d = true ↔ rank c < rank d)
    (hstops : ∀ c ∈ l, stops c = true → IsBest rank (b :: l) c) :
    choose prefers stops l (some b) =
      l.foldl (List.argAux fun c d => rank d < rank c) (some b) := by
  induction l generalizing b with
  | nil => rfl
  | cons a l ih =>
      obtain ⟨hfirst, hrest⟩ := List.pairwise_cons.mp hprefers
      have hba := hfirst a List.mem_cons_self
      rw [List.foldl_cons, argAux_some]
      by_cases hlt : rank b < rank a
      · rw [if_pos hlt]
        cases hstop : stops a with
        | true =>
            rw [choose_stops (hba.mpr hlt) hstop, foldl_argAux_best fun c hc => ?_]
            have hbest := hstops a List.mem_cons_self hstop
            exact hbest c (List.mem_cons_of_mem _ (List.mem_cons_of_mem _ hc))
        | false =>
            rw [choose_prefers (hba.mpr hlt) hstop]
            refine ih hrest fun c hc hstop' d hd => ?_
            exact hstops c (List.mem_cons_of_mem _ hc) hstop' d (List.mem_cons_of_mem _ hd)
      · have hno : prefers b a = false := Bool.eq_false_iff.mpr fun h => hlt (hba.mp h)
        rw [if_neg hlt, choose_keeps hno]
        refine ih (List.pairwise_cons.mpr
          ⟨fun d hd => hfirst d (List.mem_cons_of_mem _ hd), hrest.tail⟩) fun c hc hstop => ?_
        exact (isBest_cons_of_le (not_lt.mp hlt)).mp
          (hstops c (List.mem_cons_of_mem _ hc) hstop)

/-- **Where the rule prefers what ranks higher**, and only best elements end the scan, the first
best one is left. -/
theorem choose_eq_argmax
    (hprefers : l.Pairwise fun c d => prefers c d = true ↔ rank c < rank d)
    (hstops : ∀ c ∈ l, stops c = true → IsBest rank l c) :
    choose prefers stops l none = l.argmax rank := by
  cases l with
  | nil => rfl
  | cons b l =>
      have hfoldl : (b :: l).argmax rank =
          l.foldl (List.argAux fun c d => rank d < rank c) (some b) := rfl
      rw [choose_first, hfoldl]
      cases hstop : stops b with
      | true =>
          rw [if_pos rfl, foldl_argAux_best fun c hc => ?_]
          exact hstops b List.mem_cons_self hstop c (List.mem_cons_of_mem _ hc)
      | false =>
          rw [if_neg Bool.false_ne_true]
          exact choose_eq_foldl hprefers fun c hc => hstops c (List.mem_cons_of_mem _ hc)

/-- The one element that ranks above all others is the best one. -/
theorem argmax_of_lt (ha : a ∈ l) (h : ∀ c ∈ l, c ≠ a → rank c < rank a) :
    l.argmax rank = some a := by
  cases hmax : l.argmax rank with
  | none =>
      rw [List.argmax_eq_none.mp hmax] at ha
      cases ha
  | some c =>
      by_contra hne
      have hca : c ≠ a := fun he => hne (congrArg some he)
      exact absurd (h c (List.argmax_mem hmax) hca) (not_lt.mpr (List.le_of_mem_argmax ha hmax))

end Swirl.Lib
