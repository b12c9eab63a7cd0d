import Mathlib.Data.Finset.Card
import Mathlib.Data.Finset.Range
import Mathlib.Logic.Function.Basic
import Mathlib.Tactic

set_option autoImplicit false

/-! # Forests given by parent links

A forest over a type is a function `parent : α → Option α` along which some rank decreases. The
file relates the three ways a program looks at one: a number of steps up (`up`), the chain of
ancestors (`chainWithin`) and the walk over what hangs below (`belowWithin`), the last two with
fuel. With as much fuel as there are parents both walks are complete.
-/

namespace Swirl.Lib

variable {α : Type*}

/-! ## Steps up -/

/-- The ancestor a number of steps up; `up 0` is the element itself. -/
def up (parent : α → Option α) : Nat → α → Option α
  | 0, d => some d
  | k + 1, d => (parent d).bind (up parent k)

/-- `d` hangs below `a`. -/
def Under (parent : α → Option α) (d a : α) : Prop := ∃ k, up parent (k + 1) d = some a

section Up

variable {parent : α → Option α} {a c d p : α}

theorem up_add (m n : Nat) (d : α) : up parent (m + n) d = (up parent m d).bind (up parent n) := by
  induction m generalizing d with
  | zero => simp [up]
  | succ m ih =>
      rw [Nat.succ_add]
      show (parent d).bind (up parent (m + n)) = ((parent d).bind (up parent m)).bind _
      cases parent d with
      | none => rfl
      | some p => exact ih p

theorem up_succ (k : Nat) (d : α) : up parent (k + 1) d = (up parent k d).bind parent := by
  rw [up_add]
  congr 1
  funext e
  show (parent e).bind some = parent e
  cases parent e <;> rfl

theorem Under.of_parent (h : parent d = some p) : Under parent d p := ⟨0, by simp [up, h]⟩

theorem Under.trans (h : Under parent d c) (h' : Under parent c a) : Under parent d a := by
  obtain ⟨j, hj⟩ := h
  obtain ⟨k, hk⟩ := h'
  refine ⟨j + 1 + k, ?_⟩
  rw [Nat.add_assoc, up_add, hj]
  exact hk

/-- What hangs below a container is a child of it or hangs below a child; seen from below. -/
theorem under_iff : Under parent d a ↔ ∃ p, parent d = some p ∧ (p = a ∨ Under parent p a) := by
  constructor
  · rintro ⟨k, hk⟩
    obtain ⟨p, hp, hk⟩ := Option.bind_eq_some_iff.mp hk
    refine ⟨p, hp, ?_⟩
    cases k with
    | zero => exact Or.inl (Option.some.inj hk)
    | succ k => exact Or.inr ⟨k, hk⟩
  · rintro ⟨p, hp, rfl | h⟩
    · exact Under.of_parent hp
    · exact (Under.of_parent hp).trans h

theorem Under.mono {parent' : α → Option α} (h : Under parent' d a)
    (hsub : ∀ d p, parent' d = some p → parent d = some p) : Under parent d a := by
  obtain ⟨k, hk⟩ := h
  induction k generalizing d with
  | zero =>
      obtain ⟨p, hp, hk⟩ := Option.bind_eq_some_iff.mp hk
      obtain rfl := Option.some.inj hk
      exact Under.of_parent (hsub d p hp)
  | succ k ih =>
      obtain ⟨p, hp, hk⟩ := Option.bind_eq_some_iff.mp hk
      exact (Under.of_parent (hsub d p hp)).trans (ih hk)

theorem not_under_of_top (h : parent d = none) : ¬ Under parent d a := by
  rw [under_iff]
  rintro ⟨p, hp, -⟩
  rw [h] at hp
  cases hp

end Up

/-! ## Ranks -/

/-- Some rank decreases along the parent links, so they form no cycle. -/
def Ranked (parent : α → Option α) : Prop :=
  ∃ rank : α → Nat, ∀ d p, parent d = some p → rank p < rank d

namespace Ranked

variable {parent parent' : α → Option α} {a c d p : α}

/-- Fewer links. -/
theorem mono (h : Ranked parent) (hsub : ∀ d p, parent' d = some p → parent d = some p) :
    Ranked parent' := by
  obtain ⟨rank, hrank⟩ := h
  exact ⟨rank, fun d p hp => hrank d p (hsub d p hp)⟩

theorem rank_lt {rank : α → Nat} (hrank : ∀ d p, parent d = some p → rank p < rank d) (k : Nat)
    (h : up parent (k + 1) d = some a) : rank a < rank d := by
  induction k generalizing d with
  | zero =>
      obtain ⟨p, hp, h⟩ := Option.bind_eq_some_iff.mp h
      obtain rfl := Option.some.inj h
      exact hrank d p hp
  | succ k ih =>
      obtain ⟨p, hp, h⟩ := Option.bind_eq_some_iff.mp h
      exact (ih h).trans (hrank d p hp)

theorem irrefl (h : Ranked parent) (d : α) : ¬ Under parent d d := by
  obtain ⟨rank, hrank⟩ := h
  rintro ⟨k, hk⟩
  exact lt_irrefl _ (rank_lt hrank k hk)

/-- **A new link** to a parent that does not hang below the child keeps the forest. -/
theorem link [DecidableEq α] (h : Ranked parent) (hc : parent c = none) (hpc : p ≠ c)
    (hp : ¬ Under parent p c) : Ranked (Function.update parent c (some p)) := by
  classical
  obtain ⟨rank, hrank⟩ := h
  -- everything at or below `c` moves up, above `p`
  refine ⟨fun d => if d = c ∨ Under parent d c then rank d + rank p + 1 else rank d, ?_⟩
  intro d e he
  by_cases hd : d = c
  · subst hd
    rw [Function.update_self] at he
    obtain rfl := Option.some.inj he
    show (if p = d ∨ Under parent p d then _ else rank p) < if d = d ∨ _ then rank d + rank p + 1 else _
    rw [if_neg (not_or.mpr ⟨hpc, hp⟩), if_pos (Or.inl rfl)]
    omega
  · rw [Function.update_of_ne hd] at he
    have hlt := hrank d e he
    have hiff : (d = c ∨ Under parent d c) ↔ (e = c ∨ Under parent e c) := by
      rw [or_iff_right hd, under_iff]
      constructor
      · rintro ⟨q, hq, h⟩
        obtain rfl := Option.some.inj (he.symm.trans hq)
        exact h
      · exact fun h => ⟨e, he, h⟩
    simp only [hiff]
    split <;> omega

/-- What hangs below an element does so whatever its own parent is. -/
theorem under_update [DecidableEq α] (h : Ranked parent) (q : Option α)
    (hd : Under parent d c) : Under (Function.update parent c q) d c := by
  obtain ⟨k, hk⟩ := hd
  induction k generalizing d with
  | zero =>
      have hdc : d ≠ c := fun he => h.irrefl c ⟨0, he ▸ hk⟩
      obtain ⟨p, hp, hk⟩ := Option.bind_eq_some_iff.mp hk
      obtain rfl := Option.some.inj hk
      refine Under.of_parent ?_
      rw [Function.update_of_ne hdc]
      exact hp
  | succ k ih =>
      have hdc : d ≠ c := fun he => h.irrefl c ⟨k + 1, he ▸ hk⟩
      obtain ⟨p, hp, hk⟩ := Option.bind_eq_some_iff.mp hk
      refine (Under.of_parent ?_).trans (ih hk)
      rw [Function.update_of_ne hdc]
      exact hp

theorem under_update_iff [DecidableEq α] (h : Ranked parent) {q : Option α}
    (h' : Ranked (Function.update parent c q)) :
    Under (Function.update parent c q) d c ↔ Under parent d c := by
  constructor
  · intro hd
    have hback := h'.under_update (parent c) hd
    rwa [Function.update_idem, Function.update_eq_self] at hback
  · exact h.under_update q

/-- The ancestors of what does not hang below an element stay, whatever the parent of that element
becomes. -/
theorem under_of_update [DecidableEq α] {q : Option α} (hdc : d ≠ c) (hd : ¬ Under parent d c)
    (ha : Under (Function.update parent c q) d a) : Under parent d a := by
  obtain ⟨k, hk⟩ := ha
  induction k generalizing d with
  | zero =>
      obtain ⟨p, hp, hk⟩ := Option.bind_eq_some_iff.mp hk
      obtain rfl := Option.some.inj hk
      rw [Function.update_of_ne hdc] at hp
      exact Under.of_parent hp
  | succ k ih =>
      obtain ⟨p, hp, hk⟩ := Option.bind_eq_some_iff.mp hk
      rw [Function.update_of_ne hdc] at hp
      have hpc : p ≠ c := fun he => hd (Under.of_parent (he ▸ hp))
      exact (Under.of_parent hp).trans (ih hpc (fun hb => hd ((Under.of_parent hp).trans hb)) hk)

/-- With finitely many parents it is enough that nothing is above itself. -/
theorem of_irrefl {S : Finset α} (hS : ∀ d p, parent d = some p → p ∈ S)
    (h : ∀ d, ¬ Under parent d d) : Ranked parent := by
  classical
  refine ⟨fun d => (S.filter (Under parent d)).card, ?_⟩
  intro d p hp
  refine Finset.card_lt_card (Finset.ssubset_iff_of_subset ?_ |>.2 ?_)
  · intro a ha
    obtain ⟨hmem, hup⟩ := Finset.mem_filter.1 ha
    exact Finset.mem_filter.2 ⟨hmem, (Under.of_parent hp).trans hup⟩
  · -- the parent is above the element, and not above itself
    refine ⟨p, Finset.mem_filter.2 ⟨hS d p hp, Under.of_parent hp⟩, ?_⟩
    intro hself
    exact h p (Finset.mem_filter.1 hself).2

/-- The number of steps up is bounded by the number of parents. -/
theorem up_bound (h : Ranked parent) {S : Finset α} (hS : ∀ d p, parent d = some p → p ∈ S)
    {k : Nat} (hk : up parent k d = some a) : k ≤ S.card := by
  obtain ⟨rank, hrank⟩ := h
  have hsome : ∀ i < k, ∃ b, up parent (i + 1) d = some b := by
    intro i hi
    rw [show k = (i + 1) + (k - (i + 1)) by omega, up_add] at hk
    obtain ⟨b, hb, -⟩ := Option.bind_eq_some_iff.mp hk
    exact ⟨b, hb⟩
  have hmem : ∀ i < k, (up parent (i + 1) d).getD d ∈ S := by
    intro i hi
    obtain ⟨b, hb⟩ := hsome i hi
    rw [hb, Option.getD_some]
    rw [up_succ] at hb
    obtain ⟨e, -, he⟩ := Option.bind_eq_some_iff.mp hb
    exact hS e b he
  have hne : ∀ i j, i < j → j < k →
      (up parent (i + 1) d).getD d ≠ (up parent (j + 1) d).getD d := by
    intro i j hij hj heq
    obtain ⟨b, hb⟩ := hsome i (hij.trans hj)
    obtain ⟨b', hb'⟩ := hsome j hj
    rw [hb, hb', Option.getD_some, Option.getD_some] at heq
    subst heq
    rw [show j + 1 = (i + 1) + ((j - i - 1) + 1) by omega, up_add, hb] at hb'
    exact lt_irrefl _ (rank_lt hrank _ hb')
  have hcard := Finset.card_le_card_of_injOn (s := Finset.range k) (t := S)
    (fun i => (up parent (i + 1) d).getD d) (fun i hi => hmem i (by simpa using hi)) ?_
  · simpa using hcard
  · intro i hi j hj heq
    rcases Nat.lt_trichotomy i j with hlt | heq' | hgt
    · exact absurd heq (hne i j hlt (by simpa using hj))
    · exact heq'
    · exact absurd heq.symm (hne j i hgt (by simpa using hi))

end Ranked

/-! ## The walks -/

/-- The ancestors, nearest first, cut after a number of steps. -/
def chainWithin (parent : α → Option α) : Nat → α → List α
  | 0, _ => []
  | n + 1, d =>
      match parent d with
      | none => []
      | some p => p :: chainWithin parent n p

/-- What hangs below an element, parents first, cut below a depth. -/
def belowWithin (children : α → List α) : Nat → α → List α
  | 0, _ => []
  | n + 1, a => (children a).flatMap fun k => k :: belowWithin children n k

section Walks

variable {parent : α → Option α} {children : α → List α} {a d : α}

theorem mem_chainWithin {n : Nat} :
    a ∈ chainWithin parent n d ↔ ∃ k < n, up parent (k + 1) d = some a := by
  induction n generalizing d with
  | zero => simp [chainWithin]
  | succ n ih =>
      rw [chainWithin]
      cases hp : parent d with
      | none => simp [up, hp]
      | some p =>
          simp only [List.mem_cons, ih]
          constructor
          · rintro (rfl | ⟨k, hk, h⟩)
            · exact ⟨0, by omega, by simp [up, hp]⟩
            · refine ⟨k + 1, by omega, ?_⟩
              show (parent d).bind _ = _
              rw [hp]
              exact h
          · rintro ⟨k, hk, h⟩
            obtain ⟨q, hq, h⟩ := Option.bind_eq_some_iff.mp h
            obtain rfl := Option.some.inj (hp.symm.trans hq)
            cases k with
            | zero => exact Or.inl (Option.some.inj h).symm
            | succ k => exact Or.inr ⟨k, by omega, h⟩

/-- The walk down finds what steps up lead back from. -/
theorem mem_belowWithin (hagree : ∀ a d, d ∈ children a ↔ parent d = some a) {n : Nat} :
    d ∈ belowWithin children n a ↔ ∃ k < n, up parent (k + 1) d = some a := by
  induction n generalizing a with
  | zero => simp [belowWithin]
  | succ n ih =>
      simp only [belowWithin, List.mem_flatMap, List.mem_cons, ih]
      constructor
      · rintro ⟨k, hk, rfl | ⟨j, hj, h⟩⟩
        · exact ⟨0, by omega, by simp [up, (hagree a d).mp hk]⟩
        · refine ⟨j + 1, by omega, ?_⟩
          rw [up_succ, h]
          exact (hagree a k).mp hk
      · rintro ⟨j, hj, h⟩
        cases j with
        | zero =>
            obtain ⟨p, hp, h⟩ := Option.bind_eq_some_iff.mp h
            obtain rfl := Option.some.inj h
            exact ⟨d, (hagree p d).mpr hp, Or.inl rfl⟩
        | succ j =>
            rw [up_succ] at h
            obtain ⟨k, hk, h⟩ := Option.bind_eq_some_iff.mp h
            exact ⟨k, (hagree a k).mpr h, Or.inr ⟨j, by omega, hk⟩⟩

/-- Two walks agree below an element when the children do. -/
theorem belowWithin_congr {children' : α → List α} {P : α → Prop}
    (hP : ∀ a k, P a → k ∈ children a → P k) (hsame : ∀ a, P a → children' a = children a) (n : Nat)
    (ha : P a) : belowWithin children' n a = belowWithin children n a := by
  induction n generalizing a with
  | zero => rfl
  | succ n ih =>
      rw [belowWithin, belowWithin, hsame a ha]
      refine List.flatMap_congr fun k hk => ?_
      rw [ih (hP a k ha hk)]

/-- Where nothing is cut, one more level finds nothing more. -/
theorem belowWithin_succ_of_cut (hagree : ∀ a d, d ∈ children a → parent d = some a) {n : Nat}
    (hcut : ∀ d, up parent (n + 1) d ≠ some a) :
    belowWithin children (n + 1) a = belowWithin children n a := by
  induction n generalizing a with
  | zero =>
      have hnone : children a = [] := by
        refine List.eq_nil_iff_forall_not_mem.mpr fun k hk => hcut k ?_
        simp [up, hagree a k hk]
      simp [belowWithin, hnone]
  | succ n ih =>
      rw [belowWithin]
      conv_rhs => rw [belowWithin]
      refine List.flatMap_congr fun k hk => ?_
      rw [ih]
      intro d hd
      refine hcut d ?_
      rw [up_succ, hd]
      exact hagree a k hk

/-- With fuel for all parents the chain is complete. -/
theorem Ranked.mem_chain (h : Ranked parent) {S : Finset α}
    (hS : ∀ d p, parent d = some p → p ∈ S) :
    a ∈ chainWithin parent S.card d ↔ Under parent d a := by
  rw [mem_chainWithin]
  constructor
  · rintro ⟨k, -, hk⟩
    exact ⟨k, hk⟩
  · rintro ⟨k, hk⟩
    exact ⟨k, h.up_bound hS hk, hk⟩

/-- With fuel for all parents the walk down is complete. -/
theorem Ranked.belowWithin_succ (h : Ranked parent) {S : Finset α}
    (hS : ∀ d p, parent d = some p → p ∈ S) (hagree : ∀ a d, d ∈ children a → parent d = some a)
    {n : Nat} (hn : S.card ≤ n) (a : α) :
    belowWithin children (n + 1) a = belowWithin children n a := by
  refine belowWithin_succ_of_cut hagree fun d hd => ?_
  have hle := h.up_bound hS hd
  omega

/-- With fuel for all parents the walk down is complete. -/
theorem Ranked.mem_below (h : Ranked parent) {S : Finset α}
    (hS : ∀ d p, parent d = some p → p ∈ S)
    (hagree : ∀ a d, d ∈ children a ↔ parent d = some a) :
    d ∈ belowWithin children S.card a ↔ Under parent d a := by
  rw [mem_belowWithin hagree]
  constructor
  · rintro ⟨k, -, hk⟩
    exact ⟨k, hk⟩
  · rintro ⟨k, hk⟩
    exact ⟨k, h.up_bound hS hk, hk⟩

/-- The end of a chain that was not cut has no parent. -/
theorem chainWithin_last {n : Nat} (hcut : ∀ b, up parent (n + 1) d ≠ some b) :
    parent ((chainWithin parent n d).getLastD d) = none := by
  induction n generalizing d with
  | zero =>
      cases hp : parent d with
      | none => exact hp
      | some p => exact absurd (by simp [up, hp]) (hcut p)
  | succ n ih =>
      rw [chainWithin]
      cases hp : parent d with
      | none => exact hp
      | some p =>
          show parent ((p :: chainWithin parent n p).getLastD d) = none
          rw [List.getLastD_cons]
          refine ih fun b hb => hcut b ?_
          show (parent d).bind _ = _
          rw [hp]
          exact hb

/-- The end of a chain is the element or above it. -/
theorem chainWithin_last_mem (parent : α → Option α) (n : Nat) (d : α) :
    (chainWithin parent n d).getLastD d = d ∨
      (chainWithin parent n d).getLastD d ∈ chainWithin parent n d := by
  cases h : chainWithin parent n d with
  | nil => exact Or.inl rfl
  | cons p l =>
      right
      have hne : p :: l ≠ [] := List.cons_ne_nil p l
      rw [List.getLastD_eq_getLast?, List.getLast?_eq_getLast_of_ne_nil hne, Option.getD_some]
      exact List.getLast_mem hne

end Walks

/-! ## Walks visit once -/

section Once

variable {parent : α → Option α} {children : α → List α} {a d x : α}

/-- Two ancestors of one element are the same, or one is above the other. -/
theorem under_comparable (ha : x = a ∨ Under parent x a) (hd : x = d ∨ Under parent x d) :
    a = d ∨ Under parent a d ∨ Under parent d a := by
  rcases ha with rfl | ⟨i, hi⟩
  · exact hd.imp_right Or.inl
  · rcases hd with rfl | ⟨j, hj⟩
    · exact Or.inr (Or.inr ⟨i, hi⟩)
    · rcases Nat.lt_trichotomy i j with hlt | rfl | hgt
      · right
        left
        rw [show j + 1 = (i + 1) + ((j - i - 1) + 1) by omega, up_add, hi] at hj
        exact ⟨j - i - 1, hj⟩
      · exact Or.inl (Option.some.inj (hi.symm.trans hj))
      · right
        right
        rw [show i + 1 = (j + 1) + ((i - j - 1) + 1) by omega, up_add, hj] at hi
        exact ⟨i - j - 1, hi⟩

/-- Nothing is at or below both of two siblings. -/
theorem Ranked.siblings_disjoint (h : Ranked parent) (hsame : parent a = parent d) (hne : a ≠ d)
    (ha : x = a ∨ Under parent x a) : ¬ (x = d ∨ Under parent x d) := by
  have hapart : ∀ {b c : α}, parent b = parent c → ¬ Under parent b c := by
    intro b c hbc hb
    -- what is above `b` is above `c` as well
    obtain ⟨p, hp, hpc⟩ := under_iff.mp hb
    exact h.irrefl c (under_iff.mpr ⟨p, hbc ▸ hp, hpc⟩)
  intro hd
  rcases under_comparable ha hd with heq | had | hda
  · exact hne heq
  · exact hapart hsame had
  · exact hapart hsame.symm hda

/-- **The walk down visits nothing twice.** -/
theorem Ranked.nodup_belowWithin (h : Ranked parent)
    (hagree : ∀ a d, d ∈ children a ↔ parent d = some a) (hnodup : ∀ a, (children a).Nodup)
    (n : Nat) (a : α) : (belowWithin children n a).Nodup := by
  have hbelow : ∀ {m : Nat} {b e : α}, e ∈ belowWithin children m b → Under parent e b := by
    intro m b e he
    obtain ⟨k, -, hk⟩ := (mem_belowWithin hagree).mp he
    exact ⟨k, hk⟩
  induction n generalizing a with
  | zero => exact List.nodup_nil
  | succ n ih =>
      rw [belowWithin, List.nodup_flatMap]
      constructor
      · intro k _
        exact List.nodup_cons.mpr ⟨fun hk => h.irrefl k (hbelow hk), ih k⟩
      · refine (hnodup a).imp_of_mem fun {b c} hb hc hne => ?_
        have hsame : parent b = parent c :=
          ((hagree a b).mp hb).trans ((hagree a c).mp hc).symm
        refine List.disjoint_left.mpr fun e heb hec => ?_
        exact h.siblings_disjoint hsame hne ((List.mem_cons.mp heb).imp_right hbelow)
          ((List.mem_cons.mp hec).imp_right hbelow)

end Once

/-! ## Parents first -/

/-- Every element of a list has its parent among those seen or before it in the list. -/
def Covered (parent : α → Option α) : List α → List α → Prop
  | _, [] => True
  | seen, d :: l => (∃ p ∈ seen, parent d = some p) ∧ Covered parent (d :: seen) l

section Covered

variable {parent : α → Option α}

theorem Covered.mono {seen seen' l : List α} (h : Covered parent seen l) (hsub : seen ⊆ seen') :
    Covered parent seen' l := by
  induction l generalizing seen seen' with
  | nil => trivial
  | cons d l ih =>
      obtain ⟨⟨p, hp, hd⟩, hl⟩ := h
      exact ⟨⟨p, hsub hp, hd⟩, ih hl (List.cons_subset_cons d hsub)⟩

theorem Covered.append {seen l l' : List α} (h : Covered parent seen l)
    (h' : Covered parent seen l') : Covered parent seen (l ++ l') := by
  induction l generalizing seen with
  | nil => exact h'
  | cons d l ih => exact ⟨h.1, ih h.2 (h'.mono (List.subset_cons_self d seen))⟩

/-- **The walk down visits parents first.** -/
theorem covered_belowWithin {children : α → List α}
    (hparent : ∀ a d, d ∈ children a → parent d = some a) (n : Nat) {a : α} {seen : List α}
    (ha : a ∈ seen) : Covered parent seen (belowWithin children n a) := by
  induction n generalizing a seen with
  | zero => trivial
  | succ n ih =>
      have hkids : ∀ ks : List α, (∀ k ∈ ks, parent k = some a) →
          Covered parent seen (ks.flatMap fun k => k :: belowWithin children n k) := by
        intro ks hks
        induction ks with
        | nil => trivial
        | cons k ks ihk =>
            rw [List.flatMap_cons]
            refine Covered.append ⟨⟨a, ha, hks k List.mem_cons_self⟩, ih List.mem_cons_self⟩ ?_
            exact ihk fun k' hk' => hks k' (List.mem_cons_of_mem k hk')
      exact hkids (children a) fun k hk => hparent a k hk

end Covered

end Swirl.Lib
