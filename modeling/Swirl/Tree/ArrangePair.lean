import Swirl.Lib.Paired
import Swirl.Tree.OutputMoves
import Swirl.Tree.FixOverflow
import Swirl.Tree.Walks

set_option autoImplicit false

/-! # Two arrange passes side by side

The boxes that an arrange pass writes into a row depend on the widths of the columns and on the
fractions of what hangs below them, and the fractions it leaves depend on the fractions alone.
`Comparison.Alike` says of two states how far they agree on these, and the arrange functions carry
the agreement along, from a container to what hangs below it.
-/

namespace Swirl

open Lib

/-! ## What two states have in common -/

/-- The state without the geometry of its containers and without their maximize records. -/
def State.backdrop (s : State) : State :=
  { s with geo := fun _ => Geometry.blank, max := fun _ => ⟨false, none⟩ }

/-- What does not depend on the geometry or the records is the same where the backdrop is. -/
theorem State.eq_of_backdrop {γ : Type} {s t : State} (f : State → γ)
    (h : t.backdrop = s.backdrop) (hf : ∀ u : State, f u.backdrop = f u) : f t = f s := by
  rw [← hf t, h, hf]

theorem OnlyGeometry.backdrop {s s' : State} (h : OnlyGeometry s s') :
    s'.backdrop = s.backdrop := by
  have hback : State.backdrop { s' with geo := s.geo } = s.backdrop := congrArg State.backdrop h
  exact hback

/-- What two arrange passes over the row of `ws` have in common. The width fractions of the `wide`
containers and the height fractions of the `tall` ones may differ: the pass does not read them to
compute a fraction. Where boxes are compared, all height fractions are the same. -/
structure Comparison where
  tree : Tree
  ws : WsId
  layout : ConId → Layout
  wide : ConId → Prop
  tall : ConId → Prop
  boxed : Prop
  linked : tree.Linked
  columns_wide : ∀ c ∈ (tree.ws ws).tiling, wide c
  wide_read : ∀ p k, k ∈ (tree.con p).children → wide k → layout p ≠ .horiz ∧ layout p ≠ .none
  tall_read : ∀ p k, k ∈ (tree.con p).children → tall k →
    (tree.con p).parent = none ∧ (tree.con p).workspace.isSome
  boxed_tall : boxed → ∀ k, ¬ tall k

namespace Comparison

/-- Two states agree in a comparison; `B` are the containers whose boxes are the same already. -/
structure Alike (p : Comparison) (B : ConId → Prop) (s t : State) : Prop where
  backdrop : t.backdrop = s.backdrop
  tree : s.tree = p.tree
  awake : s.config.reloading = false
  layout : ∀ c, (s.geo c).layout = p.layout c
  layout' : ∀ c, (t.geo c).layout = p.layout c
  wf : ∀ c, InRow p.tree p.ws c → ¬ p.wide c →
    (t.geo c).widthFraction = (s.geo c).widthFraction
  hf : ∀ c, InRow p.tree p.ws c → ¬ p.tall c →
    (t.geo c).heightFraction = (s.geo c).heightFraction
  box : p.boxed → ∀ c, B c → (t.geo c).extent = (s.geo c).extent

variable {p : Comparison} {B C : ConId → Prop} {s s' t t' : State} {c : ConId}

theorem row_child (p : Comparison) {k : ConId} (hc : InRow p.tree p.ws c)
    (hk : k ∈ (p.tree.con c).children) : InRow p.tree p.ws k :=
  .child (p.linked.of_children hk) hc

namespace Alike

theorem mono (h : p.Alike B s t) (hC : ∀ d, C d → B d) : p.Alike C s t :=
  ⟨h.backdrop, h.tree, h.awake, h.layout, h.layout', h.wf, h.hf,
    fun hp d hd => h.box hp d (hC d hd)⟩

theorem tree' (h : p.Alike B s t) : t.tree = s.tree :=
  State.eq_of_backdrop State.tree h.backdrop fun _ => rfl

theorem config (h : p.Alike B s t) : t.config = s.config :=
  State.eq_of_backdrop State.config h.backdrop fun _ => rfl

theorem wsGeo (h : p.Alike B s t) : t.wsGeo = s.wsGeo :=
  State.eq_of_backdrop State.wsGeo h.backdrop fun _ => rfl

/-- Both states are written at one container, and agree there afterwards. -/
theorem modGeo (h : p.Alike B s t) (c : ConId) {f g : Geometry → Geometry}
    (hl : (f (s.geo c)).layout = (s.geo c).layout) (hl' : (g (t.geo c)).layout = (t.geo c).layout)
    (hwf : InRow p.tree p.ws c → ¬ p.wide c →
      (g (t.geo c)).widthFraction = (f (s.geo c)).widthFraction)
    (hhf : InRow p.tree p.ws c → ¬ p.tall c →
      (g (t.geo c)).heightFraction = (f (s.geo c)).heightFraction)
    (hbox : p.boxed → (g (t.geo c)).extent = (f (s.geo c)).extent) :
    p.Alike (fun d => B d ∨ d = c) (s.modGeo c f) (t.modGeo c g) := by
  have hself : ∀ (u : State) (k : Geometry → Geometry), (u.modGeo c k).geo c = k (u.geo c) :=
    fun u k => Function.update_self c _ _
  have hother : ∀ (u : State) (k : Geometry → Geometry) {d : ConId}, d ≠ c →
      (u.modGeo c k).geo d = u.geo d := fun u k _ hd => Function.update_of_ne hd _ _
  refine ⟨h.backdrop, h.tree, h.awake, ?_, ?_, ?_, ?_, ?_⟩
  · intro d
    by_cases hd : d = c
    · rw [hd, hself, hl, h.layout]
    · rw [hother s f hd, h.layout]
  · intro d
    by_cases hd : d = c
    · rw [hd, hself, hl', h.layout']
    · rw [hother t g hd, h.layout']
  · intro d hrow hw
    by_cases hd : d = c
    · subst hd
      rw [hself, hself, hwf hrow hw]
    · rw [hother s f hd, hother t g hd, h.wf d hrow hw]
  · intro d hrow ht
    by_cases hd : d = c
    · subst hd
      rw [hself, hself, hhf hrow ht]
    · rw [hother s f hd, hother t g hd, h.hf d hrow ht]
  · intro hp d hd
    by_cases hdc : d = c
    · rw [hdc, hself, hself, hbox hp]
    · rw [hother s f hdc, hother t g hdc]
      exact h.box hp d (hd.resolve_right hdc)

/-- Both passes take their next steps, each with its own entries. -/
theorem foldl {α β : Type} {f : State → α → State} {g : State → β → State}
    {l : List α} {m : List β} (h : p.Alike B s t) (key : α → ConId → Prop)
    (hlm : List.Forall₂ (fun a b => ∀ C s t, (∀ d, B d → C d) → p.Alike C s t →
      p.Alike (fun d => C d ∨ key a d) (f s a) (g t b)) l m) :
    p.Alike (fun d => B d ∨ ∃ a ∈ l, key a d) (l.foldl f s) (m.foldl g t) :=
  foldl_paired (R := p.Alike) (fun _ _ _ _ hC h => h.mono hC) hlm h

end Alike

end Comparison

/-! ## The look of a container -/

namespace Comparison

variable {p : Comparison} {B C : ConId → Prop} {s s' t t' : State} {c : ConId}

/-- What leaves the looks of the containers alone keeps the agreement. -/
theorem Alike.congr (h : p.Alike B s t) (hs : OnlyGeometry s s') (ht : OnlyGeometry t t')
    (hframe : ∀ d, (s'.geo d).frame = (s.geo d).frame)
    (hframe' : ∀ d, (t'.geo d).frame = (t.geo d).frame) : p.Alike B s' t' := by
  have hwf : ∀ {u u' : State} {d : ConId}, (u'.geo d).frame = (u.geo d).frame →
      (u'.geo d).widthFraction = (u.geo d).widthFraction :=
    fun h => congrArg (fun e : Layout × ℚ × ℚ × (ℚ × ℚ × ℚ × ℚ) => e.2.1) h
  have hhf : ∀ {u u' : State} {d : ConId}, (u'.geo d).frame = (u.geo d).frame →
      (u'.geo d).heightFraction = (u.geo d).heightFraction :=
    fun h => congrArg (fun e : Layout × ℚ × ℚ × (ℚ × ℚ × ℚ × ℚ) => e.2.2.1) h
  have hext : ∀ {u u' : State} {d : ConId}, (u'.geo d).frame = (u.geo d).frame →
      (u'.geo d).extent = (u.geo d).extent :=
    fun h => congrArg (fun e : Layout × ℚ × ℚ × (ℚ × ℚ × ℚ × ℚ) => e.2.2.2) h
  refine ⟨ht.backdrop.trans (h.backdrop.trans hs.backdrop.symm), hs.tree.trans h.tree,
    hs.config ▸ h.awake, ?_, ?_, ?_, ?_, ?_⟩
  · intro d
    exact (congrArg Prod.fst (hframe d)).trans (h.layout d)
  · intro d
    exact (congrArg Prod.fst (hframe' d)).trans (h.layout' d)
  · intro d hrow hw
    rw [hwf (hframe' d), hwf (hframe d), h.wf d hrow hw]
  · intro d hrow ht
    rw [hhf (hframe' d), hhf (hframe d), h.hf d hrow ht]
  · intro hp d hd
    rw [hext (hframe' d), hext (hframe d), h.box hp d hd]

theorem Alike.viewAutoconfigure (h : p.Alike B s t) (c : ConId) :
    p.Alike B (Swirl.viewAutoconfigure s c) (Swirl.viewAutoconfigure t c) :=
  h.congr (.of_writes (writes_viewAutoconfigure s c)) (.of_writes (writes_viewAutoconfigure t c))
    (frame_viewAutoconfigure s c) (frame_viewAutoconfigure t c)

/-! ## What both passes read -/

theorem Alike.containerParentLayout (h : p.Alike B s t) (c : ConId) :
    Swirl.containerParentLayout t c = Swirl.containerParentLayout s c := by
  unfold Swirl.containerParentLayout
  rw [h.tree', h.wsGeo]
  split
  · rw [h.layout', h.layout]
  · rfl
  · rfl

theorem Alike.innerGap (h : p.Alike B s t) (c : ConId) :
    Swirl.innerGap t c = Swirl.innerGap s c := by
  unfold Swirl.innerGap
  rw [h.tree', h.wsGeo]
  simp only [h.containerParentLayout]

theorem Alike.containerGetSizeConstraints (h : p.Alike B s t) (c : ConId) :
    Swirl.containerGetSizeConstraints t c = Swirl.containerGetSizeConstraints s c := by
  unfold Swirl.containerGetSizeConstraints
  rw [h.tree']
  exact sizeConstraintsWithin_congr h.tree'
    (State.eq_of_backdrop State.deco h.backdrop fun _ => rfl)
    (State.eq_of_backdrop State.full h.backdrop fun _ => rfl) h.config _ c

theorem Alike.columnLimits (h : p.Alike B s t) (c : ConId) :
    Swirl.columnLimits t c = Swirl.columnLimits s c := by
  unfold Swirl.columnLimits containerClampTiledWidthMin workspaceWidthFraction
  rw [h.containerGetSizeConstraints, h.tree', h.config, h.wsGeo]

/-- The limits of a window are the same where its height fraction is. -/
theorem Alike.windowLimits (h : p.Alike B s t) (hrow : InRow p.tree p.ws c) (hc : ¬ p.tall c) :
    Swirl.windowLimits t c = Swirl.windowLimits s c := by
  unfold Swirl.windowLimits containerClampTiledHeightMin
  rw [h.containerGetSizeConstraints, h.hf c hrow hc]

/-! ## Children side by side -/

theorem normalizeFractions_length (fractions : List ℚ) :
    (normalizeFractions fractions).length = fractions.length := by
  unfold normalizeFractions
  dsimp only
  rw [List.length_map, List.length_map]

theorem linearPlaces_length (far total gap cross pos : ℚ) (fractions : List ℚ) :
    (linearPlaces far total gap cross pos fractions).length = fractions.length := by
  induction fractions generalizing pos with
  | nil => rfl
  | cons f fs ih =>
      rw [linearPlaces, List.length_cons, List.length_cons, ih]

/-- The containers whose fraction along an axis may differ. -/
def differs (p : Comparison) : Axis → ConId → Prop
  | .horiz => p.wide
  | .vert => p.tall

theorem Alike.fraction (h : p.Alike B s t) (a : Axis) (hrow : InRow p.tree p.ws c)
    (hc : ¬ p.differs a c) : a.fraction (t.geo c) = a.fraction (s.geo c) := by
  cases a with
  | horiz => exact h.wf c hrow hc
  | vert => exact h.hf c hrow hc

/-- One child gets its box. -/
theorem Alike.write (h : p.Alike B s t) (a : Axis) (c : ConId) {parent parent' : Box}
    {total total' : ℚ} {place place' : ℚ × ℚ × Bool} (fraction : ℚ)
    (hparent : p.boxed → parent' = parent) (hplace : p.boxed → place' = place) :
    p.Alike (fun d => B d ∨ d = c) (s.modGeo c (a.write parent fraction total place))
      (t.modGeo c (a.write parent' fraction total' place')) := by
  have hbox : p.boxed → (a.write parent' fraction total' place' (t.geo c)).extent =
      (a.write parent fraction total place (s.geo c)).extent := by
    intro hp
    rw [hparent hp, hplace hp]
    cases a <;> rfl
  cases a with
  | horiz => exact h.modGeo c rfl rfl (fun _ _ => rfl) (fun hrow hc => h.hf c hrow hc) hbox
  | vert => exact h.modGeo c rfl rfl (fun hrow hc => h.wf c hrow hc) (fun _ _ => rfl) hbox

theorem Alike.applyLinearLayout (h : p.Alike B s t) (a : Axis) {children : List ConId}
    {parent parent' : Box} (hread : ∀ c ∈ children, InRow p.tree p.ws c ∧ ¬ p.differs a c)
    (hparent : p.boxed → parent' = parent) :
    p.Alike (fun d => B d ∨ d ∈ children) (Swirl.applyLinearLayout a s children parent)
      (Swirl.applyLinearLayout a t children parent') := by
  unfold Swirl.applyLinearLayout
  cases children with
  | nil => exact h.mono fun d hd => hd.resolve_right List.not_mem_nil
  | cons first rest =>
      dsimp only
      -- the fractions of the children do not depend on what differs
      have hfractions : ((first :: rest).map fun c => a.fraction (t.geo c)) =
          (first :: rest).map fun c => a.fraction (s.geo c) :=
        List.map_congr_left fun c hc => h.fraction a (hread c hc).1 (hread c hc).2
      have hlen : (normalizeFractions ((first :: rest).map fun c => a.fraction (s.geo c))).length =
          (first :: rest).length := by
        rw [normalizeFractions_length, List.length_map]
      rw [hfractions, h.innerGap]
      generalize normalizeFractions ((first :: rest).map fun c => a.fraction (s.geo c)) =
        fractions at hlen ⊢
      refine (h.foldl (fun r d => d = r.1) (List.Forall₂.imp ?_
        (forall₂_zip (forall₂_zip (forall₂_of_length (P := p.boxed) ?_ ?_) fractions)
          (first :: rest)))).mono ?_
      · rintro ⟨c, fraction, place⟩ ⟨c', fraction', place'⟩ ⟨rfl, rfl, hplace⟩ C u v hC huv
        exact huv.write a c' fraction' hparent hplace
      · rw [linearPlaces_length, linearPlaces_length]
      · intro hp
        rw [hparent hp]
      · rintro d (hd | hd)
        · exact Or.inl hd
        · refine Or.inr (exists_mem_zip ?_ hd)
          rw [List.length_zip, linearPlaces_length, min_self, hlen]

/-- The children of a tabbed or stacked container get boxes; no fraction is read. -/
theorem Alike.applyBarLayout (h : p.Alike B s t) (bars : Int) (children : List ConId)
    {parent parent' : Box} (hparent : p.boxed → parent' = parent) :
    p.Alike (fun d => B d ∨ d ∈ children) (Swirl.applyBarLayout bars s children parent)
      (Swirl.applyBarLayout bars t children parent') := by
  unfold Swirl.applyBarLayout
  refine (h.foldl (fun c d => d = c) (List.forall₂_same.mpr ?_)).mono ?_
  · intro c _ C u v _ huv
    dsimp only
    rw [huv.tree', huv.config]
    refine huv.modGeo c rfl rfl (fun hrow hc => huv.wf c hrow hc)
      (fun hrow hc => huv.hf c hrow hc) fun hp => ?_
    rw [hparent hp]
    rfl
  · rintro d (hd | hd)
    · exact Or.inl hd
    · exact Or.inr ⟨d, hd, rfl⟩

theorem Alike.applyLayout (h : p.Alike B s t) {children : List ConId} (layout : Layout)
    {parent parent' : Box} (hrow : ∀ c ∈ children, InRow p.tree p.ws c)
    (hwide : ∀ c ∈ children, p.wide c → layout ≠ .horiz ∧ layout ≠ .none)
    (htall : ∀ c ∈ children, p.tall c → layout ≠ .vert)
    (hparent : p.boxed → parent' = parent) :
    p.Alike (fun d => B d ∨ d ∈ children) (Swirl.applyLayout s children layout parent)
      (Swirl.applyLayout t children layout parent') := by
  unfold Swirl.applyLayout
  cases layout with
  | horiz =>
      exact h.applyLinearLayout .horiz (fun c hc => ⟨hrow c hc, fun hw => (hwide c hc hw).1 rfl⟩)
        hparent
  | none =>
      exact h.applyLinearLayout .horiz (fun c hc => ⟨hrow c hc, fun hw => (hwide c hc hw).2 rfl⟩)
        hparent
  | vert =>
      exact h.applyLinearLayout .vert (fun c hc => ⟨hrow c hc, fun ht => htall c hc ht rfl⟩) hparent
  | tabbed => exact h.applyBarLayout 1 children hparent
  | stacked => exact h.applyBarLayout _ children hparent

/-! ## The windows of a column -/

theorem Alike.placeWindow (h : p.Alike B s t) {col col' : Geometry} {y y' height height' : ℚ}
    (c : ConId) (hcol : p.boxed → col'.extent = col.extent) (hy : p.boxed → y' = y)
    (hheight : p.boxed → height' = height) :
    p.Alike (fun d => B d ∨ d = c) (Swirl.placeWindow col y height s c)
      (Swirl.placeWindow col' y' height' t c) := by
  have hplaced : p.Alike (fun d => B d ∨ d = c)
      (s.modGeo c fun g => { g with height, x := col.x, y := col.y + y, width := col.width })
      (t.modGeo c fun g =>
        { g with height := height', x := col'.x, y := col'.y + y', width := col'.width }) := by
    refine h.modGeo c rfl rfl (fun hrow hc => h.wf c hrow hc) (fun hrow hc => h.hf c hrow hc)
      fun hp => ?_
    have hextent := hcol hp
    simp only [Geometry.extent, Prod.mk.injEq] at hextent ⊢
    obtain ⟨hx, hcy, hwidth, -⟩ := hextent
    exact ⟨hx, by rw [hcy, hy hp], hwidth, hheight hp⟩
  have hview : ((t.modGeo c fun g => { g with
      height := height', x := col'.x, y := col'.y + y', width := col'.width }).tree.con c).view =
      ((s.modGeo c fun g => { g with
        height, x := col.x, y := col.y + y, width := col.width }).tree.con c).view := by
    rw [hplaced.tree']
  unfold Swirl.placeWindow
  dsimp only
  rw [hview]
  split
  · exact hplaced.viewAutoconfigure c
  · exact hplaced

theorem Alike.placeWindows (h : p.Alike B s t) {col col' : Geometry} (gap : ℚ) {y y' : ℚ}
    {rs rs' : List (ConId × ℚ)} (hcol : p.boxed → col'.extent = col.extent)
    (hy : p.boxed → y' = y)
    (hrs : List.Forall₂ (fun r r' => r'.1 = r.1 ∧ (p.boxed → r'.2 = r.2)) rs rs') :
    p.Alike (fun d => B d ∨ ∃ r ∈ rs, d = r.1) (Swirl.placeWindows col gap y rs s)
      (Swirl.placeWindows col' gap y' rs' t) := by
  induction hrs generalizing B s t y y' with
  | nil =>
      refine h.mono fun d hd => hd.resolve_right ?_
      rintro ⟨r, hr, -⟩
      cases hr
  | @cons r r' rs rs' hr _ ih =>
      obtain ⟨c, x⟩ := r
      obtain ⟨c', x'⟩ := r'
      obtain ⟨rfl, hx⟩ := hr
      refine (ih (h.placeWindow c' hcol hy hx) fun hp => ?_).mono ?_
      · have hxx : x' = x := hx hp
        rw [hy hp, hxx]
      · rintro d (hd | ⟨r, hr, rfl⟩)
        · exact Or.inl (Or.inl hd)
        · rcases List.mem_cons.mp hr with rfl | hr
          · exact Or.inl (Or.inr rfl)
          · exact Or.inr ⟨r, hr, rfl⟩

theorem Alike.viewportArrangeWindows (h : p.Alike B s t) (hrow : InRow p.tree p.ws c)
    (hview : ¬ (p.tree.con c).view.isSome) (hc : p.boxed → B c) :
    p.Alike (fun d => B d ∨ d ∈ (p.tree.con c).children) (Swirl.viewportArrangeWindows s c)
      (Swirl.viewportArrangeWindows t c) := by
  unfold Swirl.viewportArrangeWindows
  dsimp only
  rw [h.tree', h.tree, h.wsGeo]
  by_cases hnone : (p.tree.con c).children = []
  · rw [if_pos (Or.inr hnone), if_pos (Or.inr hnone)]
    refine h.mono fun d hd => hd.resolve_right ?_
    rw [hnone]
    exact List.not_mem_nil
  · have hne : ¬ ((p.tree.con c).view.isSome = true ∨ (p.tree.con c).children = []) := by
      rintro (h | h)
      · exact hview h
      · exact hnone h
    rw [if_neg hne, if_neg hne]
    have hextent : p.boxed → (t.geo c).extent = (s.geo c).extent := fun hp => h.box hp c (hc hp)
    have hlength : ∀ (u : State) (usableH : ℚ),
        (columnHeights ((p.tree.con c).children.map (Swirl.windowLimits u)) usableH).length =
          (p.tree.con c).children.length := by
      intro u usableH
      rw [columnHeights_length, List.length_map]
    refine (h.placeWindows _ hextent (fun _ => rfl)
      (forall₂_zip (forall₂_of_length ?_ fun hp => ?_) _)).mono ?_
    · rw [hlength, hlength]
    · -- the heights are computed from the height of the column and the height fractions
      have hheight : (t.geo c).height = (s.geo c).height :=
        congrArg (fun e : ℚ × ℚ × ℚ × ℚ => e.2.2.2) (hextent hp)
      have hlimits : (p.tree.con c).children.map (Swirl.windowLimits t) =
          (p.tree.con c).children.map (Swirl.windowLimits s) :=
        List.map_congr_left fun k hk =>
          h.windowLimits (p.row_child hrow hk) (p.boxed_tall hp k)
      rw [hheight, hlimits]
    · rintro d (hd | hd)
      · exact Or.inl hd
      · exact Or.inr (exists_mem_zip (hlength s _) hd)

end Comparison

/-! ## What hangs below a container -/

/-- The containers that `arrange_container` gives a box, cut below a depth: all that hangs below
the container, but only the windows of a column that is laid out vertically. -/
def Tree.placedWithin (t : Tree) (layout : ConId → Layout) : Nat → ConId → List ConId
  | 0, _ => []
  | n + 1, c =>
      if (t.con c).view.isSome then []
      else if (t.con c).parent.isNone ∧ (t.con c).workspace.isSome ∧ layout c = .vert then
        (t.con c).children
      else (t.con c).children ++ (t.con c).children.flatMap (t.placedWithin layout n)

/-- The containers that arranging a column gives a box. -/
def Tree.placed (t : Tree) (layout : ConId → Layout) (c : ConId) : List ConId :=
  t.placedWithin layout (t.nextCon + 1) c

namespace Comparison

variable {p : Comparison} {B C : ConId → Prop} {s s' t t' : State} {c : ConId}

theorem Alike.containerGetBox (h : p.Alike B s t) (hp : p.boxed) (hc : B c) :
    Swirl.containerGetBox t c = Swirl.containerGetBox s c := by
  have hextent := h.box hp c hc
  simp only [Geometry.extent, Prod.mk.injEq] at hextent
  obtain ⟨hx, hy, hwidth, hheight⟩ := hextent
  unfold Swirl.containerGetBox
  dsimp only
  rw [hx, hy, hwidth, hheight]

/-- **`arrange_container` carries the agreement from a container to all it gives a box.** -/
theorem Alike.arrangeWithin (n : Nat) (h : p.Alike B s t) (hrow : InRow p.tree p.ws c)
    (hc : p.boxed → B c) : p.Alike (fun d => B d ∨ d ∈ p.tree.placedWithin p.layout n c)
      (Swirl.arrangeWithin n s c) (Swirl.arrangeWithin n t c) := by
  induction n generalizing B s t c with
  | zero => exact h.mono fun d hd => hd.resolve_right List.not_mem_nil
  | succ n ih =>
      rw [Swirl.arrangeWithin, Swirl.arrangeWithin, Tree.placedWithin, h.config, h.tree', h.tree,
        h.layout, h.layout', h.awake, if_neg Bool.false_ne_true, if_neg Bool.false_ne_true]
      split
      next =>
        refine (h.viewAutoconfigure c).mono fun d hd => hd.resolve_right List.not_mem_nil
      next hview =>
        split
        next => exact h.viewportArrangeWindows hrow hview hc
        next hnested =>
          dsimp only
          have hlayout := h.applyLayout (p.layout c)
            (fun k hk => p.row_child hrow hk) (fun k hk hw => p.wide_read c k hk hw)
            (fun k hk ht hl => hnested ⟨by rw [(p.tall_read c k hk ht).1]; rfl,
              (p.tall_read c k hk ht).2, hl⟩)
            fun hp => h.containerGetBox hp (hc hp)
          refine (hlayout.foldl (fun k d => d ∈ p.tree.placedWithin p.layout n k)
            (List.forall₂_same.mpr ?_)).mono ?_
          · -- each child has its box by now
            intro k hk C u v hC huv
            exact ih huv (p.row_child hrow hk) fun _ => hC k (Or.inr hk)
          · rintro d (hd | hd)
            · exact Or.inl (Or.inl hd)
            · rcases List.mem_append.mp hd with hd | hd
              · exact Or.inl (Or.inr hd)
              · obtain ⟨k, hk, hd⟩ := List.mem_flatMap.mp hd
                exact Or.inr ⟨k, hk, hd⟩

theorem Alike.arrangeColumn (h : p.Alike B s t) (hcol : c ∈ (p.tree.ws p.ws).tiling)
    (hc : p.boxed → B c) : p.Alike (fun d => B d ∨ d ∈ p.tree.placed p.layout c)
      (Swirl.arrangeColumn s c) (Swirl.arrangeColumn t c) := by
  obtain ⟨hparent, hws⟩ := p.linked.of_tiling hcol
  unfold Swirl.arrangeColumn
  rw [h.tree', h.tree, h.layout, h.layout']
  split
  next hview =>
    refine h.mono fun d hd => hd.resolve_right ?_
    rw [Tree.placed, Tree.placedWithin, if_pos hview]
    exact List.not_mem_nil
  next hview =>
    split
    next hvert =>
      rw [Tree.placed, Tree.placedWithin, if_neg hview, if_pos ⟨by rw [hparent]; rfl,
        by rw [hws]; rfl, hvert⟩]
      exact h.viewportArrangeWindows (.column hcol) hview hc
    next =>
      unfold Swirl.arrangeContainer
      rw [h.tree', h.tree]
      exact h.arrangeWithin _ (.column hcol) hc

/-! ## The row -/

theorem Alike.setColumnBox (h : p.Alike B s t) (w : WsId) (parent : Box)
    (hcol : c ∈ (p.tree.ws p.ws).tiling) {place place' : Int × Int}
    (hplace : p.boxed → place' = place) :
    p.Alike (fun d => B d ∨ d = c) (Swirl.setColumnBox w parent s c place)
      (Swirl.setColumnBox w parent t c place') := by
  unfold Swirl.setColumnBox
  dsimp only
  refine h.modGeo c rfl rfl (fun _ hw => absurd (p.columns_wide c hcol) hw)
    (fun hrow hc => h.hf c hrow hc) fun hp => ?_
  rw [hplace hp, h.wsGeo]
  rfl

theorem Alike.placeColumn (h : p.Alike B s t) (w : WsId) (parent : Box)
    (hcol : c ∈ (p.tree.ws p.ws).tiling) {place place' : Int × Int}
    (hplace : p.boxed → place' = place) :
    p.Alike (fun d => B d ∨ d = c ∨ d ∈ p.tree.placed p.layout c)
      (Swirl.placeColumn w parent s (c, place)) (Swirl.placeColumn w parent t (c, place')) := by
  have hbox := h.setColumnBox w parent hcol hplace
  refine (hbox.arrangeColumn hcol fun _ => Or.inr rfl).mono ?_
  rintro d (hd | hd | hd)
  · exact Or.inl (Or.inl hd)
  · exact Or.inl (Or.inr hd)
  · exact Or.inr hd

/-- The columns get the same places where they have the same widths. -/
theorem Alike.rowPlaces (h : p.Alike B s t) (w : WsId) (parent : Box)
    (hwidth : ∀ c ∈ (p.tree.ws w).tiling, (t.geo c).width = (s.geo c).width) :
    Swirl.rowPlaces t w parent = Swirl.rowPlaces s w parent := by
  have hrow : rowOf t w = rowOf s w := by
    unfold rowOf
    rw [h.tree', h.tree]
    refine List.map_congr_left fun c hc => ?_
    unfold rowColumn
    rw [h.columnLimits, hwidth c hc]
  unfold Swirl.rowPlaces rowRoom
  rw [hrow, h.tree', h.wsGeo]

/-- **`workspace_arrange_columns` carries the agreement to the whole row.** -/
theorem Alike.workspaceArrangeColumns (h : p.Alike B s t) (parent : Box)
    (hwidth : p.boxed → ∀ c ∈ (p.tree.ws p.ws).tiling, (t.geo c).width = (s.geo c).width) :
    p.Alike (fun d => B d ∨ ∃ c ∈ (p.tree.ws p.ws).tiling, d = c ∨ d ∈ p.tree.placed p.layout c)
      (Swirl.workspaceArrangeColumns s p.ws parent)
      (Swirl.workspaceArrangeColumns t p.ws parent) := by
  rw [workspaceArrangeColumns_eq, workspaceArrangeColumns_eq, h.tree', h.tree]
  refine (h.foldl (fun r d => r.1 ∈ (p.tree.ws p.ws).tiling ∧
    (d = r.1 ∨ d ∈ p.tree.placed p.layout r.1)) (List.Forall₂.imp ?_
      (forall₂_zip_mem (forall₂_of_length (P := p.boxed) ?_ ?_) (p.tree.ws p.ws).tiling))).mono ?_
  · rintro ⟨c, place⟩ ⟨c', place'⟩ ⟨hc, hcc, hplace⟩ C u v _ huv
    dsimp only at hc hcc
    subst hcc
    refine (huv.placeColumn p.ws parent hc hplace).mono ?_
    rintro d (hd | ⟨-, hd⟩)
    · exact Or.inl hd
    · exact Or.inr hd
  · rw [rowPlaces_length, rowPlaces_length, h.tree']
  · intro hp
    exact h.rowPlaces p.ws parent (hwidth hp)
  · rintro d (hd | ⟨c, hc, hd⟩)
    · exact Or.inl hd
    · have hlen : (Swirl.rowPlaces s p.ws parent).length = (p.tree.ws p.ws).tiling.length := by
        rw [rowPlaces_length, h.tree]
      obtain ⟨r, hr, rfl⟩ := exists_mem_zip hlen hc
      exact Or.inr ⟨r, hr, hc, hd⟩

/-! ## What the pass leaves alone -/

/-- A state agrees with itself. -/
theorem Alike.right (h : p.Alike B s t) : p.Alike (fun _ => True) t t where
  backdrop := rfl
  tree := h.tree'.trans h.tree
  awake := h.config.symm ▸ h.awake
  layout := h.layout'
  layout' := h.layout'
  wf _ _ _ := rfl
  hf _ _ _ := rfl
  box _ _ _ := rfl

/-- What gets no box keeps the one it has. -/
theorem Alike.extent_arrangeWithin (n : Nat) (h : p.Alike (fun _ => True) s s)
    (hrow : InRow p.tree p.ws c) {d : ConId} (hd : d ∉ p.tree.placedWithin p.layout n c) :
    ((Swirl.arrangeWithin n s c).geo d).extent = (s.geo d).extent := by
  induction n generalizing s c with
  | zero => rfl
  | succ n ih =>
      rw [Tree.placedWithin] at hd
      rw [Swirl.arrangeWithin, h.tree, h.layout, h.awake, if_neg Bool.false_ne_true]
      split at hd
      next hview =>
        rw [if_pos hview]
        exact extent_viewAutoconfigure s c d
      next hview =>
        rw [if_neg hview]
        split at hd
        next hvert =>
          rw [if_pos hvert, (writes_viewportArrangeWindows s c).geo d (by rwa [h.tree])]
        next hnested =>
          rw [if_neg hnested]
          dsimp only
          obtain ⟨hchild, hbelow⟩ := not_or.mp (mt List.mem_append.mpr hd)
          have hlayout := h.applyLayout (p.layout c)
            (fun k hk => p.row_child hrow hk) (fun k hk hw => p.wide_read c k hk hw)
            (fun k hk ht hl => hnested ⟨by rw [(p.tall_read c k hk ht).1]; rfl,
              (p.tall_read c k hk ht).2, hl⟩)
            fun _ => (rfl : Swirl.containerGetBox s c = Swirl.containerGetBox s c)
          have hfirst := (writes_applyLayout s (p.tree.con c).children (p.layout c)
            (Swirl.containerGetBox s c)).geo d hchild
          -- the children are arranged one by one, and `d` is placed below none of them
          refine (foldl_invariant (I := fun u => p.Alike (fun _ => True) u u ∧
            (u.geo d).extent = (s.geo d).extent) _ _ ?_ ⟨hlayout.right, by rw [hfirst]⟩).2
          rintro u k hk ⟨hu, hext⟩
          have hkrow := p.row_child hrow hk
          refine ⟨(hu.arrangeWithin n hkrow fun _ => trivial).right, ?_⟩
          rw [ih hu hkrow fun hmem => hbelow (List.mem_flatMap.mpr ⟨k, hk, hmem⟩), hext]

theorem Alike.extent_arrangeColumn (h : p.Alike (fun _ => True) s s)
    (hcol : c ∈ (p.tree.ws p.ws).tiling) {d : ConId} (hd : d ∉ p.tree.placed p.layout c) :
    ((Swirl.arrangeColumn s c).geo d).extent = (s.geo d).extent := by
  obtain ⟨hparent, hws⟩ := p.linked.of_tiling hcol
  unfold Swirl.arrangeColumn
  rw [h.tree, h.layout]
  split
  next => rfl
  next hview =>
    split
    next hvert =>
      rw [Tree.placed, Tree.placedWithin, if_neg hview, if_pos ⟨by rw [hparent]; rfl,
        by rw [hws]; rfl, hvert⟩] at hd
      rw [(writes_viewportArrangeWindows s c).geo d (by rwa [h.tree])]
    next =>
      unfold Swirl.arrangeContainer
      rw [h.tree]
      exact h.extent_arrangeWithin _ (.column hcol) hd

theorem Alike.extent_workspaceArrangeColumns (h : p.Alike (fun _ => True) s s)
    (parent : Box) {d : ConId}
    (hd : ∀ c ∈ (p.tree.ws p.ws).tiling, d ≠ c ∧ d ∉ p.tree.placed p.layout c) :
    ((Swirl.workspaceArrangeColumns s p.ws parent).geo d).extent = (s.geo d).extent := by
  rw [workspaceArrangeColumns_eq, h.tree]
  refine (foldl_invariant (I := fun u => p.Alike (fun _ => True) u u ∧
    (u.geo d).extent = (s.geo d).extent) _ _ ?_ ⟨h, rfl⟩).2
  rintro u ⟨c, place⟩ hr ⟨hu, hext⟩
  have hcol := (List.of_mem_zip hr).1
  obtain ⟨hne, hout⟩ := hd c hcol
  have hbox := hu.setColumnBox p.ws parent hcol fun _ => (rfl : place = place)
  refine ⟨(hu.placeColumn p.ws parent hcol fun _ => (rfl : place = place)).right, ?_⟩
  rw [Swirl.placeColumn, hbox.right.extent_arrangeColumn hcol hout,
    (writes_setColumnBox p.ws parent u c place).geo d hne, hext]

end Comparison

/-! ## Before the columns -/

/-- The state in which the columns of a workspace are arranged. -/
def readyForColumns (s : State) (w : WsId) (o : OutId) : State :=
  workspaceAddGaps (beforeGaps s w o) w

/-- The backdrop without the place of a workspace. -/
def State.still (s : State) (w : WsId) : State :=
  s.backdrop.modWsGeo w fun k =>
    { k with x := 0, y := 0, width := 0, height := 0, currentGaps := ⟨0, 0, 0, 0⟩ }

theorem State.still_of_backdrop {s t : State} (h : t.backdrop = s.backdrop) (w : WsId) :
    t.still w = s.still w := by
  unfold State.still
  rw [h]

theorem State.eq_of_still {γ : Type} {s t : State} {w : WsId} (f : State → γ)
    (h : t.still w = s.still w) (hf : ∀ u : State, f (u.still w) = f u) : f t = f s := by
  rw [← hf t, h, hf]

variable {s t : State} {w : WsId} {o : OutId}

/-- The settings of a workspace are the same where everything but its place is. -/
theorem wsGeo_of_still (h : t.still w = s.still w) (area : Box) :
    (onArea t w area).wsGeo w = { (onArea s w area).wsGeo w with
      currentGaps := (t.wsGeo w).currentGaps } := by
  have hgeo : ((t.still w).wsGeo w) = ((s.still w).wsGeo w) := by rw [h]
  have hself : ∀ u : State, (u.still w).wsGeo w = { u.wsGeo w with
      x := 0, y := 0, width := 0, height := 0, currentGaps := ⟨0, 0, 0, 0⟩ } :=
    fun u => Function.update_self w _ _
  rw [hself, hself] at hgeo
  rw [wsGeo_onArea, wsGeo_onArea]
  simp only [WsGeometry.mk.injEq] at hgeo ⊢
  obtain ⟨-, -, -, -, h⟩ := hgeo
  exact ⟨trivial, trivial, trivial, trivial, h.1, h.2.1, h.2.2.1, trivial, h.2.2.2.2⟩

/-- The test for a single visible container reads no more than the layouts and the focus. -/
theorem sameLook_of_still (h : t.still w = s.still w)
    (hlayout : ∀ c, (t.geo c).layout = (s.geo c).layout) : SameLook s t := by
  refine ⟨State.eq_of_still State.tree h fun _ => rfl, State.eq_of_still State.seat h fun _ => rfl,
    State.eq_of_still State.defaultSeat h fun _ => rfl,
    State.eq_of_still State.full h fun _ => rfl, hlayout, fun v => ?_⟩
  refine State.eq_of_still (fun u => (u.wsGeo v).layout) h fun u => ?_
  by_cases hv : v = w
  · subst hv
    show ((Function.update u.wsGeo v _) v).layout = _
    rw [Function.update_self]
    rfl
  · show ((Function.update u.wsGeo w _) v).layout = _
    rw [Function.update_of_ne hv]

theorem sameLook_beforeGaps (s : State) (w : WsId) (o : OutId) : SameLook s (beforeGaps s w o) := by
  have harea : SameLook s (onArea s w (areaOf (s.outGeo o))) := SameLook.modWsGeo s w rfl
  unfold beforeGaps
  split
  · exact harea.trans (SameLook.foldl (fun u c => SameLook.fixFloater w o _ u c) _ _)
  · exact harea

theorem sameLook_readyForColumns (s : State) (w : WsId) (o : OutId) :
    SameLook s (readyForColumns s w o) := by
  refine (sameLook_beforeGaps s w o).trans ?_
  unfold readyForColumns workspaceAddGaps
  exact SameLook.modWsGeo _ w rfl

/-- The gaps do not depend on the place that the workspace had. -/
theorem currentGaps_of_still (h : t.still w = s.still w)
    (hlayout : ∀ c, (t.geo c).layout = (s.geo c).layout) (o : OutId) :
    currentGaps (beforeGaps t w o) w = currentGaps (beforeGaps s w o) w := by
  have hlook : SameLook (beforeGaps s w o) (beforeGaps t w o) :=
    (sameLook_beforeGaps s w o).symm.trans
      ((sameLook_of_still h hlayout).trans (sameLook_beforeGaps t w o))
  have hout : t.outGeo = s.outGeo := State.eq_of_still State.outGeo h fun _ => rfl
  have hconfig : ∀ u : State, (beforeGaps u w o).config = u.config := fun u =>
    (onlyGeometry_beforeGaps u w o).config.trans rfl
  unfold currentGaps
  rw [hlook.single, hconfig, hconfig, State.eq_of_still State.config h fun _ => rfl,
    (onlyGeometry_beforeGaps t w o).wsGeo, (onlyGeometry_beforeGaps s w o).wsGeo, hout,
    wsGeo_of_still h]

/-- Where `arrange_workspace` puts a workspace, by its output and its gaps. -/
def WsGeometry.settle (area : Box) (g : SideGaps) (k : WsGeometry) : WsGeometry :=
  { k with
    currentGaps := g, x := area.x + g.left, y := area.y + g.top,
    width := area.width - (g.left + g.right), height := area.height - (g.top + g.bottom) }

theorem wsGeo_readyForColumns (s : State) (w : WsId) (o : OutId) :
    (readyForColumns s w o).wsGeo = Function.update s.wsGeo w ((s.wsGeo w).settle
      (areaOf (s.outGeo o)) (currentGaps (beforeGaps s w o) w)) := by
  unfold readyForColumns workspaceAddGaps State.modWsGeo
  dsimp only
  rw [(onlyGeometry_beforeGaps s w o).wsGeo, wsGeo_onArea]
  unfold onArea State.modWsGeo
  dsimp only
  rw [Function.update_idem]
  rfl

theorem backdrop_readyForColumns_eq (s : State) (w : WsId) (o : OutId) :
    (readyForColumns s w o).backdrop = (s.still w).modWsGeo w
      (WsGeometry.settle (areaOf (s.outGeo o)) (currentGaps (beforeGaps s w o) w)) := by
  have hready : (readyForColumns s w o).backdrop =
      { (beforeGaps s w o).backdrop with wsGeo := (readyForColumns s w o).wsGeo } := rfl
  rw [hready, (onlyGeometry_beforeGaps s w o).backdrop, wsGeo_readyForColumns]
  unfold State.still State.modWsGeo
  dsimp only
  rw [Function.update_idem, Function.update_self]
  rfl

theorem backdrop_readyForColumns (h : t.still w = s.still w)
    (hlayout : ∀ c, (t.geo c).layout = (s.geo c).layout) (o : OutId) :
    (readyForColumns t w o).backdrop = (readyForColumns s w o).backdrop := by
  have hout : t.outGeo = s.outGeo := State.eq_of_still State.outGeo h fun _ => rfl
  rw [backdrop_readyForColumns_eq, backdrop_readyForColumns_eq, currentGaps_of_still h hlayout o,
    hout, h]

/-- Only the place of the workspace differs. -/
theorem still_readyForColumns (s : State) (w : WsId) (o : OutId) :
    (readyForColumns s w o).still w = s.still w := by
  have hstill : (readyForColumns s w o).still w =
      (readyForColumns s w o).backdrop.modWsGeo w fun k =>
        { k with x := 0, y := 0, width := 0, height := 0, currentGaps := ⟨0, 0, 0, 0⟩ } := rfl
  rw [hstill, backdrop_readyForColumns_eq]
  unfold State.still State.modWsGeo
  dsimp only
  rw [Function.update_idem, Function.update_self, Function.update_self, Function.update_idem]
  rfl

/-- The columns of a workspace and what hangs below them are neither floating nor below a floating
container. -/
theorem Tree.Linked.row_apart {t : Tree} (h : t.Linked) {c d : ConId} (hd : InRow t w d)
    (hc : c ∈ (t.ws w).floating) : ¬ (d = c ∨ t.Below c d) := by
  induction hd with
  | column hcol =>
      rintro (rfl | hbelow)
      · exact h.apart w _ hcol hc
      · exact h.not_below_top (h.of_tiling hcol).1 hbelow
  | @child d p hp _ ih =>
      rintro (rfl | hbelow)
      · rw [(h.of_floating hc).1] at hp
        cases hp
      · rcases Relation.TransGen.tail'_iff.mp hbelow with ⟨q, hcq, hq⟩
        have heq : q = p := Option.some.inj ((h.of_children hq).symm.trans hp)
        subst heq
        rcases Relation.reflTransGen_iff_eq_or_transGen.mp hcq with heq | hcq
        · exact ih (Or.inl heq)
        · exact ih (Or.inr hcq)

/-- Nothing in the row is moved before the columns are arranged. -/
theorem geo_readyForColumns (hs : s.tree.Linked) {d : ConId} (hd : InRow s.tree w d) :
    (readyForColumns s w o).geo d = s.geo d := by
  show (beforeGaps s w o).geo d = s.geo d
  unfold beforeGaps
  split
  · refine ((writes_fixFloaters (onArea s w (areaOf (s.outGeo o))) w o _).geo d ?_).trans rfl
    rintro ⟨c, hc, hcd⟩
    exact hs.row_apart hd hc hcd
  · rfl

/-- The state after its columns are arranged. -/
def arrangedRow (s : State) (w : WsId) (o : OutId) : State :=
  workspaceArrangeColumns (readyForColumns s w o) w (workspaceGetBox (readyForColumns s w o) w)

/-- **What `arrange_workspace` makes of the row is what arranging the columns makes of it.** -/
theorem geo_arrangeWorkspace (hs : s.tree.Linked) (hr : s.config.reloading = false)
    (ho : (s.tree.ws w).output = some o) (hfull : s.full.workspace w = none) {d : ConId}
    (hd : InRow s.tree w d) : (arrangeWorkspace s w).geo d = (arrangedRow s w o).geo d := by
  have hready : (readyForColumns s w o).full = s.full ∧ (readyForColumns s w o).tree = s.tree :=
    ⟨(onlyGeometry_beforeGaps s w o).full, (onlyGeometry_beforeGaps s w o).tree⟩
  rw [arrangeWorkspace_eq hr ho]
  show (arrangeContents (readyForColumns s w o) w o).geo d = _
  unfold arrangeContents arrangedRow
  rw [hready.1, hfull]
  dsimp only
  have hcols := writes_workspaceArrangeColumns (readyForColumns s w o) w
    (workspaceGetBox (readyForColumns s w o) w)
  have htree := hcols.tree.trans hready.2
  generalize workspaceArrangeColumns (readyForColumns s w o) w
    (workspaceGetBox (readyForColumns s w o) w) = u at htree ⊢
  refine (Writes.floating u w fun v c => (writes_arrangeContainer v c).mono ?_).geo d ?_
  · rintro d (⟨rfl, -⟩ | hd)
    · exact Or.inl rfl
    · exact Or.inr hd
  · rw [htree]
    rintro ⟨c, hc, hcd⟩
    exact hs.row_apart hd hc hcd

/-! ## The whole pass -/

namespace SameLook

theorem of_onlyGeometry {s' : State} (h : OnlyGeometry s s')
    (hlayout : ∀ c, (s'.geo c).layout = (s.geo c).layout) : SameLook s s' :=
  sameLook_of_still (w := 0) (State.still_of_backdrop h.backdrop 0) hlayout

theorem viewAutoconfigure (s : State) (c : ConId) : SameLook s (viewAutoconfigure s c) :=
  .of_onlyGeometry (.of_writes (writes_viewAutoconfigure s c)) fun d =>
    congrArg Prod.fst (frame_viewAutoconfigure s c d)

theorem applyLayout (s : State) (children : List ConId) (layout : Layout) (parent : Box) :
    SameLook s (applyLayout s children layout parent) := by
  have hlinear : ∀ a, SameLook s (applyLinearLayout a s children parent) := by
    intro a
    unfold applyLinearLayout
    split
    · exact refl s
    · refine foldl (fun u (r : ConId × ℚ × ℚ × ℚ × Bool) => modGeo u r.1 ?_) _ s
      cases a <;> rfl
  have hbars : ∀ bars, SameLook s (applyBarLayout bars s children parent) :=
    fun _ => foldl (fun u c => modGeo u c rfl) children s
  cases layout with
  | horiz => exact hlinear .horiz
  | none => exact hlinear .horiz
  | vert => exact hlinear .vert
  | tabbed => exact hbars 1
  | stacked => exact hbars _

theorem placeWindows (col : Geometry) (gap : ℚ) (rs : List (ConId × ℚ)) (y : ℚ) (s : State) :
    SameLook s (placeWindows col gap y rs s) := by
  have hplace : ∀ (u : State) (y height : ℚ) (c : ConId),
      SameLook u (placeWindow col y height u c) := by
    intro u y height c
    unfold placeWindow
    dsimp only
    split
    · exact (modGeo u c rfl).trans (viewAutoconfigure _ c)
    · exact modGeo u c rfl
  induction rs generalizing y s with
  | nil => exact refl s
  | cons r rs ih => exact (hplace s y r.2 r.1).trans (ih _ _)

theorem viewportArrangeWindows (s : State) (col : ConId) :
    SameLook s (viewportArrangeWindows s col) := by
  unfold Swirl.viewportArrangeWindows
  dsimp only
  split
  · exact refl s
  · exact placeWindows _ _ _ _ s

theorem arrangeWithin (n : Nat) (s : State) (c : ConId) : SameLook s (arrangeWithin n s c) := by
  induction n generalizing s c with
  | zero => exact refl s
  | succ n ih =>
      rw [Swirl.arrangeWithin]
      split
      · exact refl s
      · split
        · exact viewAutoconfigure s c
        · split
          · exact viewportArrangeWindows s c
          · exact (applyLayout s _ _ _).trans (foldl (fun u k => ih u k) _ _)

theorem arrangeColumn (s : State) (c : ConId) : SameLook s (arrangeColumn s c) := by
  unfold Swirl.arrangeColumn
  split
  · exact refl s
  · split
    · exact viewportArrangeWindows s c
    · exact arrangeWithin _ s c

/-- Arranging a workspace changes no layout. -/
theorem arrangeWorkspace (hr : s.config.reloading = false)
    (ho : (s.tree.ws w).output = some o) : SameLook s (arrangeWorkspace s w) := by
  rw [arrangeWorkspace_eq hr ho]
  refine (sameLook_readyForColumns s w o).trans ?_
  show SameLook (readyForColumns s w o) (arrangeContents (readyForColumns s w o) w o)
  unfold arrangeContents
  split
  next fs _ => exact (modGeo _ fs rfl).trans (arrangeWithin _ _ fs)
  next =>
    refine trans ?_ (foldl (fun u c => arrangeWithin _ u c) _ _)
    exact foldl (fun u (r : ConId × Int × Int) =>
      (modGeo u r.1 rfl).trans (arrangeColumn _ r.1)) _ _

end SameLook

/-- The pass writes geometry and the place of the workspace. -/
theorem still_arrangeWorkspace (hr : s.config.reloading = false)
    (ho : (s.tree.ws w).output = some o) : (arrangeWorkspace s w).still w = s.still w := by
  rw [arrangeWorkspace_eq hr ho, ← still_readyForColumns s w o]
  exact State.still_of_backdrop (onlyGeometry_arrangeContents _ w o).backdrop w

/-- The width fraction of a column is that of the width it gets. -/
theorem widthFraction_arrangedRow (hs : s.tree.Linked) {c : ConId}
    (hc : c ∈ (s.tree.ws w).tiling) : ((arrangedRow s w o).geo c).widthFraction =
      workspaceWidthToFraction (readyForColumns s w o) w ((arrangedRow s w o).geo c).width := by
  have htree : (readyForColumns s w o).tree = s.tree := (sameLook_readyForColumns s w o).tree
  have hshape : RowShape (readyForColumns s w o).tree w := by
    rw [htree]
    exact ⟨hs.nodup (.tiling w), fun _ _ d hd => hs.not_below_top (hs.of_tiling hd).1⟩
  have hlen := rowPlaces_length (readyForColumns s w o) w
    (workspaceGetBox (readyForColumns s w o) w)
  rw [← htree] at hc
  obtain ⟨⟨c, place⟩, hr, rfl⟩ := exists_mem_zip hlen hc
  have hbox := columnBox_workspaceArrangeColumns hshape hr
  simp only [columnBox, placedBox, ColumnBox.mk.injEq] at hbox
  obtain ⟨-, -, hwidth, -, hfraction⟩ := hbox
  unfold arrangedRow
  rw [hfraction, hwidth]

namespace Comparison

/-- Two states agree before `arrange_workspace`, up to the place of the workspace. -/
structure Agree (p : Comparison) (s t : State) : Prop where
  still : t.still p.ws = s.still p.ws
  tree : s.tree = p.tree
  awake : s.config.reloading = false
  layout : ∀ c, (s.geo c).layout = p.layout c
  layout' : ∀ c, (t.geo c).layout = p.layout c
  wf : ∀ c, InRow p.tree p.ws c → ¬ p.wide c →
    (t.geo c).widthFraction = (s.geo c).widthFraction
  hf : ∀ c, InRow p.tree p.ws c → ¬ p.tall c →
    (t.geo c).heightFraction = (s.geo c).heightFraction

namespace Agree

variable {p : Comparison}

theorem tree' (h : p.Agree s t) : t.tree = p.tree :=
  (State.eq_of_still State.tree h.still fun _ => rfl).trans h.tree

theorem geo_ready {u : State} (hu : u.tree = p.tree) (o : OutId) {c : ConId}
    (hc : InRow p.tree p.ws c) : (readyForColumns u p.ws o).geo c = u.geo c := by
  rw [← hu] at hc
  exact geo_readyForColumns (hu.symm ▸ p.linked) hc

theorem readyForColumns (h : p.Agree s t) (o : OutId) :
    p.Alike (fun _ => False) (readyForColumns s p.ws o) (readyForColumns t p.ws o) := by
  have hback := backdrop_readyForColumns h.still
    (fun c => (h.layout' c).trans (h.layout c).symm) o
  have hlook : ∀ u : State, SameLook u (Swirl.readyForColumns u p.ws o) := fun u =>
    sameLook_readyForColumns u p.ws o
  refine ⟨hback, (hlook s).tree.trans h.tree, ?_, fun c => ((hlook s).layout c).trans (h.layout c),
    fun c => ((hlook t).layout c).trans (h.layout' c), ?_, ?_, fun _ _ h => h.elim⟩
  · have hstill := still_readyForColumns s p.ws o
    rw [State.eq_of_still State.config hstill fun _ => rfl]
    exact h.awake
  · intro c hc hw
    rw [geo_ready h.tree o hc, geo_ready h.tree' o hc, h.wf c hc hw]
  · intro c hc ht
    rw [geo_ready h.tree o hc, geo_ready h.tree' o hc, h.hf c hc ht]

/-- **Two states that agree before `arrange_workspace` agree after it**, with all the boxes that the
pass writes where the columns have the same widths. -/
theorem arrangedRow (h : p.Agree s t) (o : OutId)
    (hwidth : p.boxed → ∀ c ∈ (p.tree.ws p.ws).tiling, (t.geo c).width = (s.geo c).width) :
    p.Alike (fun d => ∃ c ∈ (p.tree.ws p.ws).tiling, d = c ∨ d ∈ p.tree.placed p.layout c)
      (arrangedRow s p.ws o) (arrangedRow t p.ws o) := by
  have hready := h.readyForColumns o
  have hbox : workspaceGetBox (Swirl.readyForColumns t p.ws o) p.ws =
      workspaceGetBox (Swirl.readyForColumns s p.ws o) p.ws := by
    unfold workspaceGetBox
    rw [hready.wsGeo]
  unfold Swirl.arrangedRow
  rw [hbox]
  refine (hready.workspaceArrangeColumns _ fun hp c hc => ?_).mono fun d hd => Or.inr hd
  rw [geo_ready h.tree o (.column hc), geo_ready h.tree' o (.column hc), hwidth hp c hc]

/-- What gets no box in the pass keeps its extent. -/
theorem extent_arrangedRow (h : p.Agree s t) (o : OutId) {d : ConId}
    (hrow : InRow p.tree p.ws d)
    (hd : ∀ c ∈ (p.tree.ws p.ws).tiling, d ≠ c ∧ d ∉ p.tree.placed p.layout c) :
    ((Swirl.arrangedRow t p.ws o).geo d).extent = (t.geo d).extent := by
  unfold Swirl.arrangedRow
  rw [(h.readyForColumns o).right.extent_workspaceArrangeColumns _ hd, geo_ready h.tree' o hrow]

end Agree

end Comparison

end Swirl
