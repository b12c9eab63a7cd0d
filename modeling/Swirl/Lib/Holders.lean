import Mathlib.Data.List.Nodup
import Mathlib.Logic.Function.Basic
import Mathlib.Tactic

set_option autoImplicit false

/-! # Tokens with one holder

Keys hold lists of tokens, and only the live keys count. The tokens are held exclusively when no
live key holds a token twice and no two live keys hold the same one.
-/

namespace Swirl.Lib

variable {κ τ : Type*}

/-- Every token is held by one live key at most, and once. -/
structure Exclusive (live : κ → Prop) (holds : κ → List τ) : Prop where
  nodup : ∀ c, live c → (holds c).Nodup
  alone : ∀ c d m, live c → live d → m ∈ holds c → m ∈ holds d → c = d

namespace Exclusive

variable {live live' : κ → Prop} {holds holds' : κ → List τ}

/-- Dropping tokens and losing keys is harmless, and so are new keys without tokens. -/
theorem mono (h : Exclusive live holds) (hlive : ∀ c, live' c → live c ∨ holds' c = [])
    (hsub : ∀ c, (holds' c).Sublist (holds c)) : Exclusive live' holds' := by
  refine ⟨fun c hc => ?_, fun c d m hc hd hmc hmd => ?_⟩
  · rcases hlive c hc with hc | hnil
    · exact (h.nodup c hc).sublist (hsub c)
    · rw [hnil]
      exact List.nodup_nil
  · rcases hlive c hc with hc | hnil
    · rcases hlive d hd with hd | hnil
      · exact h.alone c d m hc hd ((hsub c).subset hmc) ((hsub d).subset hmd)
      · rw [hnil] at hmd
        exact absurd hmd List.not_mem_nil
    · rw [hnil] at hmc
      exact absurd hmc List.not_mem_nil

variable [DecidableEq κ]

/-- **Giving a token** to a live key is harmless exactly when no live key holds it. -/
theorem give_iff (h : Exclusive live holds) (c : κ) (m : τ) :
    Exclusive live (Function.update holds c (holds c ++ [m])) ↔
      (live c → ∀ d, live d → m ∉ holds d) := by
  have hself : Function.update holds c (holds c ++ [m]) c = holds c ++ [m] :=
    Function.update_self ..
  have hother : ∀ d, d ≠ c → Function.update holds c (holds c ++ [m]) d = holds d :=
    fun d hd => Function.update_of_ne hd ..
  constructor
  · intro hx hc d hd hm
    by_cases hdc : d = c
    · subst hdc
      have hnodup := hx.nodup d hd
      rw [hself] at hnodup
      exact (List.nodup_append.mp hnodup).2.2 m hm m (List.mem_singleton_self m) rfl
    · refine hdc (hx.alone d c m hd hc ?_ ?_)
      · rwa [hother d hdc]
      · rw [hself]
        exact List.mem_append_right _ (List.mem_singleton_self m)
  · intro hfree
    have hmem : ∀ d n, live d → n ∈ Function.update holds c (holds c ++ [m]) d →
        n ∈ holds d ∨ n = m ∧ d = c := by
      intro d n _ hn
      by_cases hdc : d = c
      · subst hdc
        rw [hself, List.mem_append, List.mem_singleton] at hn
        exact hn.imp_right fun hnm => ⟨hnm, rfl⟩
      · rw [hother d hdc] at hn
        exact Or.inl hn
    refine ⟨fun d hd => ?_, fun a b n ha hb hna hnb => ?_⟩
    · by_cases hdc : d = c
      · subst hdc
        rw [hself, List.nodup_append]
        refine ⟨h.nodup d hd, List.nodup_singleton m, fun x hx y hy hxy => ?_⟩
        rw [List.mem_singleton] at hy
        exact hfree hd d hd (hy ▸ hxy ▸ hx)
      · rw [hother d hdc]
        exact h.nodup d hd
    · rcases hmem a n ha hna with hna' | ⟨rfl, rfl⟩
      · rcases hmem b n hb hnb with hnb' | ⟨rfl, rfl⟩
        · exact h.alone a b n ha hb hna' hnb'
        · exact absurd hna' (hfree hb a ha)
      · rcases hmem b n hb hnb with hnb' | ⟨-, rfl⟩
        · exact absurd hnb' (hfree ha b hb)
        · rfl

variable [DecidableEq τ]

/-- Once a key has given a token back, nobody holds it if nobody else held it before. -/
theorem take_back (h : Exclusive live holds) {c : κ} {m : τ}
    (halone : ∀ d, live d → m ∈ holds d → d = c) {d : κ} (hd : live d) :
    m ∉ Function.update holds c ((holds c).erase m) d := by
  by_cases hdc : d = c
  · subst hdc
    rw [Function.update_self]
    exact (h.nodup d hd).not_mem_erase
  · rw [Function.update_of_ne hdc]
    exact fun hm => hdc (halone d hd hm)

end Exclusive

end Swirl.Lib
