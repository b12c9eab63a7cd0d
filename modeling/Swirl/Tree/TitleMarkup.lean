import Swirl.Lib.Runs
import Swirl.Tree.Start
import Swirl.Tree.Titles

set_option autoImplicit false

/-! # Markup in titles

Beside every formatted title we keep where its characters come from: each one is of the source or of
a client, and was escaped a number of times. The characters of markup that a client sends are escaped
where a placeholder stands for them, but not where a representation names a view by its class or its
application id.
-/

namespace Swirl

open Lib

/-- A character, whether a client sent it, and how often it was escaped. -/
structure Glyph where
  char : Char
  client : Bool
  escapes : Nat
  deriving DecidableEq

/-- What stands for a character in a title. -/
def Glyph.text (g : Glyph) : List Char := escapeText^[g.escapes] [g.char]

def glyphsText (gs : List Glyph) : List Char := gs.flatMap Glyph.text

/-- The characters that tags and entities are made of. -/
def IsMarkup (c : Char) : Prop := c = '<' ∨ c = '>' ∨ c = '&'

instance (c : Char) : Decidable (IsMarkup c) := inferInstanceAs (Decidable (_ ∨ _ ∨ _))

/-- A character of markup that a client sent is escaped exactly once. -/
def Glyph.Safe (g : Glyph) : Prop := g.client = true → IsMarkup g.char → g.escapes = 1

/-- The titles with the origins of their characters. -/
abbrev GlyphTitles := ConId → Option (List Glyph)

def GlyphTitles.Safe (titles : GlyphTitles) : Prop := ∀ c, ∀ gs ∈ titles c, ∀ g ∈ gs, g.Safe

namespace TitleState

variable (s : TitleState)

/-- Where the characters of a part come from. -/
def partGlyphs (titles : GlyphTitles) : TitlePart → List Glyph
  | .own text => text.map fun c => ⟨c, false, 0⟩
  | .prop value => (cString value).map fun c => ⟨c, true, if s.pangoMarkup then 1 else 0⟩
  | .identifier value => (cString value).map fun c => ⟨c, true, 0⟩
  | .child c => (titles c).getD []

/-- Where the characters of the title of a container come from. -/
def titleGlyphs (titles : GlyphTitles) (c : ConId) : List Glyph :=
  (s.titleParts c).flatMap (s.partGlyphs titles)

/-- The formatted titles are the texts of their characters. -/
def Erases (titles : GlyphTitles) : Prop :=
  ∀ c, (s.titles.formattedTitle c).map cString = (titles c).map glyphsText

variable {s}

theorem glyphsText_map (text : List Char) (client : Bool) (escapes : Nat) :
    glyphsText (text.map fun c => ⟨c, client, escapes⟩) =
      text.flatMap fun c => escapeText^[escapes] [c] := List.flatMap_map _ _ _

theorem glyphsText_partGlyphs {titles : GlyphTitles} (h : s.Erases titles) (part : TitlePart) :
    glyphsText (s.partGlyphs titles part) = s.partText part := by
  have hplain (text : List Char) : (text.flatMap fun c => escapeText^[0] [c]) = text :=
    List.flatMap_singleton' text
  cases part with
  | own text => exact (glyphsText_map text false 0).trans (hplain text)
  | identifier value => exact (glyphsText_map (cString value) true 0).trans (hplain _)
  | prop value =>
      unfold partGlyphs partText
      dsimp only
      rw [glyphsText_map]
      split_ifs
      · have hone (c : Char) : escapeText^[1] [c] = (markupEscape c).elim [c] Prod.snd :=
          List.append_nil _
        unfold escapeText
        exact congrArg ((cString value).flatMap ·) (funext hone)
      · exact hplain _
  | child c =>
      have hc := h c
      change glyphsText ((titles c).getD []) = cString ((s.titles.formattedTitle c).getD [])
      cases hformatted : s.titles.formattedTitle c with
      | none =>
          rw [hformatted] at hc
          rw [Option.map_eq_none_iff.mp hc.symm]
          rfl
      | some title =>
          rw [hformatted] at hc
          obtain ⟨gs, hgs, htext⟩ := Option.map_eq_some_iff.mp hc.symm
          rw [hgs]
          exact htext

theorem glyphsText_titleGlyphs {titles : GlyphTitles} (h : s.Erases titles) (c : ConId) :
    glyphsText (s.titleGlyphs titles c) = s.partsText (s.titleParts c) := by
  unfold glyphsText titleGlyphs partsText
  rw [List.flatMap_assoc]
  exact congrArg ((s.titleParts c).flatMap ·) (funext fun part => glyphsText_partGlyphs h part)

end TitleState

/-! ## Runs -/

/-- The titles with the origins of their characters, where markup is on. -/
structure TracedTitles where
  titles : TitleState
  glyphs : GlyphTitles
  markup : titles.pangoMarkup = true
  erases : titles.Erases glyphs

/-- What changes titles. `change` is everything else that happens: the tree, the properties of the
views and the title formats become others, and the titles of some containers are freed. -/
inductive TitleStep where
  | change (state : State) (titles : Titles) (freed : ConId → Bool)
  | viewUpdateTitle (c : ConId) (force : Bool)
  | containerUpdateRepresentation (c : ConId)
  | workspaceUpdateRepresentation (w : WsId)

theorem TitleState.viewUpdateTitle_eq (s : TitleState) (c : ConId) (force : Bool) :
    s.viewUpdateTitle c force =
      some (if !force ∧ (s.titles.props c).title.map cString = (s.titles.title c).map cString then s
        else (s.setFormattedTitle c (if (s.partsText (s.titleParts c)).length ≠ 0 then
          some (s.partsText (s.titleParts c) ++ [nul]) else none)).setTitle c
            (s.titles.props c).title) := by
  unfold TitleState.viewUpdateTitle
  rw [(s.parseTitleFormat_gives c).measured_eq]
  dsimp only
  by_cases hsame : (!force) = true ∧
      (s.titles.props c).title.map cString = (s.titles.title c).map cString
  · rw [if_pos hsame, if_pos hsame]
  · rw [if_neg hsame, if_neg hsame]
    rfl

theorem TitleState.Erases.setFormattedTitle {s : TitleState} {titles : GlyphTitles}
    (h : s.Erases titles) (c : ConId) {title : Option (List Char)} {gs : Option (List Glyph)}
    (hc : title.map cString = gs.map glyphsText) :
    (s.setFormattedTitle c title).Erases (Function.update titles c gs) := by
  intro d
  change (Function.update s.titles.formattedTitle c title d).map cString = _
  by_cases hd : d = c
  · rw [hd, Function.update_self, Function.update_self]
    exact hc
  · rw [Function.update_of_ne hd, Function.update_of_ne hd]
    exact h d

namespace TracedTitles

/-- Before any title is made. -/
def start (state : State) (titles : Titles) : TracedTitles where
  titles := ⟨true, state, { titles with formattedTitle := fun _ => none }⟩
  glyphs _ := none
  markup := rfl
  erases _ := rfl

/-- The title of a container that is no view is made again. -/
def retitle (w : TracedTitles) (c : ConId) : TracedTitles where
  titles := (w.titles.retitle c).getD w.titles
  glyphs := if w.titles.isView c then w.glyphs
    else Function.update w.glyphs c (some (w.titles.titleGlyphs w.glyphs c))
  markup := by
    rw [TitleState.retitle_eq, Option.getD_some]
    split_ifs
    · exact w.markup
    · exact w.markup
  erases := by
    rw [TitleState.retitle_eq, Option.getD_some]
    split_ifs
    · exact w.erases
    · refine w.erases.setFormattedTitle c ?_
      rw [Option.map_some, Option.map_some, TitleState.glyphsText_titleGlyphs w.erases,
        (w.titles.parseTitleFormat_gives c).plain]

/-- `workspace_update_representation` -/
def workspaceUpdateRepresentation (w : TracedTitles) (ws : WsId) : TracedTitles where
  titles := (w.titles.workspaceUpdateRepresentation ws).getD w.titles
  glyphs := w.glyphs
  markup := by
    rw [TitleState.workspaceUpdateRepresentation_eq]
    exact w.markup
  erases := by
    rw [TitleState.workspaceUpdateRepresentation_eq]
    exact w.erases

/-- `container_update_representation`, cut after a number of containers. -/
def updateRepresentationWithin : Nat → TracedTitles → ConId → TracedTitles
  | 0, w, _ => w
  | n + 1, w, c =>
      let w := w.retitle c
      match (w.titles.state.tree.con c).parent, (w.titles.state.tree.con c).workspace with
      | some parent, _ => updateRepresentationWithin n w parent
      | none, some workspace => w.workspaceUpdateRepresentation workspace
      | none, none => w

/-- `view_update_title` -/
def viewUpdateTitle (w : TracedTitles) (c : ConId) (force : Bool) : TracedTitles where
  titles := (w.titles.viewUpdateTitle c force).getD w.titles
  glyphs :=
    if !force ∧ (w.titles.titles.props c).title.map cString = (w.titles.titles.title c).map cString
    then w.glyphs
    else Function.update w.glyphs c
      (if (w.titles.partsText (w.titles.titleParts c)).length ≠ 0 then
        some (w.titles.titleGlyphs w.glyphs c) else none)
  markup := by
    rw [TitleState.viewUpdateTitle_eq, Option.getD_some]
    split_ifs
    · exact w.markup
    · exact w.markup
    · exact w.markup
  erases := by
    rw [TitleState.viewUpdateTitle_eq, Option.getD_some]
    split_ifs
    · exact w.erases
    · refine w.erases.setFormattedTitle c ?_
      rw [Option.map_some, Option.map_some, TitleState.glyphsText_titleGlyphs w.erases,
        (w.titles.parseTitleFormat_gives c).plain]
    · exact w.erases.setFormattedTitle c rfl

/-- A step. A title of a view is made for the container of a view. -/
def apply (w : TracedTitles) : TitleStep → TracedTitles
  | .change state titles freed =>
      { titles := ⟨w.titles.pangoMarkup, state, { titles with
          formattedTitle := fun c => if freed c then none else w.titles.titles.formattedTitle c }⟩
        glyphs := fun c => if freed c then none else w.glyphs c
        markup := w.markup
        erases := fun c => by
          dsimp only
          split_ifs
          · rfl
          · exact w.erases c }
  | .viewUpdateTitle c force => if w.titles.isView c then w.viewUpdateTitle c force else w
  | .containerUpdateRepresentation c =>
      updateRepresentationWithin w.titles.state.tree.nextCon w c
  | .workspaceUpdateRepresentation ws => w.workspaceUpdateRepresentation ws

/-- The titles are those of the source. -/
theorem titles_updateRepresentationWithin (n : Nat) (w : TracedTitles) (c : ConId) :
    TitleState.updateRepresentationWithin n w.titles c =
      some (updateRepresentationWithin n w c).titles := by
  induction n generalizing w c with
  | zero => rfl
  | succ n ih =>
      have hretitle : w.titles.retitle c = some (w.retitle c).titles := by
        change w.titles.retitle c = some ((w.titles.retitle c).getD w.titles)
        rw [TitleState.retitle_eq]
        rfl
      have hworkspace (ws : WsId) : (w.retitle c).titles.workspaceUpdateRepresentation ws =
          some ((w.retitle c).workspaceUpdateRepresentation ws).titles := by
        change (w.retitle c).titles.workspaceUpdateRepresentation ws =
          some (((w.retitle c).titles.workspaceUpdateRepresentation ws).getD (w.retitle c).titles)
        rw [TitleState.workspaceUpdateRepresentation_eq]
        rfl
      unfold TitleState.updateRepresentationWithin updateRepresentationWithin
      rw [hretitle]
      dsimp only [bind, Option.bind]
      cases ((w.retitle c).titles.state.tree.con c).parent with
      | some parent => exact ih _ _
      | none =>
          cases ((w.retitle c).titles.state.tree.con c).workspace with
          | some ws => exact hworkspace ws
          | none => rfl

end TracedTitles

/-! ## What a representation names -/

namespace TitleState

variable (s : TitleState)

/-- The title of a container that is no view shows its representation. -/
def ShowsRepresentation (c : ConId) : Prop :=
  ∀ format ∈ s.titles.titleFormat c, "%title".toList <:+: cString format

/-- No view among the children of a container is called by a name with markup. -/
def PlainNames (c : ConId) : Prop :=
  ∀ child ∈ (s.state.tree.con c).children, s.isView child = true →
    ∀ name ∈ ((s.titles.props child).class <|> (s.titles.props child).appId),
      ∀ x ∈ cString name, ¬ IsMarkup x

/-- No name with markup comes into the title of a container. -/
def Clean (c : ConId) : Prop :=
  s.isView c = false → s.ShowsRepresentation c → s.PlainNames c

variable {s}

theorem identifier_mem_childParts {value : List Char} (i : Nat) (children : List ConId) :
    .identifier value ∈ s.childParts i children ↔
      ∃ child ∈ children, s.isView child = true ∧
        ((s.titles.props child).class <|> (s.titles.props child).appId) = some value := by
  induction children generalizing i with
  | nil => simp [childParts]
  | cons child children ih =>
      have hpart : .identifier value = s.childPart child ↔ s.isView child = true ∧
          ((s.titles.props child).class <|> (s.titles.props child).appId) = some value := by
        unfold childPart identifier
        by_cases hview : s.isView child = true
        · rw [if_pos hview]
          cases ((s.titles.props child).class <|> (s.titles.props child).appId) with
          | none => simp
          | some name => simp [hview, eq_comm]
        · rw [if_neg hview]
          cases s.titles.formattedTitle child with
          | none => simp [hview]
          | some title => simp [hview]
      unfold childParts
      rw [List.mem_append, List.mem_cons, ih, hpart, List.exists_mem_cons_iff]
      have hspace : .identifier value ∉ (if i ≠ 0 then [.own [' ']] else [] : List TitlePart) := by
        split_ifs <;> simp
      constructor
      · rintro (hmem | hmem)
        · exact absurd hmem hspace
        · exact hmem
      · exact .inr

theorem identifier_mem_representationParts {value : List Char} (layout : Layout)
    (children : List ConId) :
    .identifier value ∈ s.representationParts layout children ↔
      ∃ child ∈ children, s.isView child = true ∧
        ((s.titles.props child).class <|> (s.titles.props child).appId) = some value := by
  unfold representationParts
  rw [List.mem_cons, List.mem_append, identifier_mem_childParts]
  constructor
  · rintro (hmem | hmem | hmem)
    · cases hmem
    · exact hmem
    · cases List.mem_singleton.mp hmem
  · exact fun hmem => .inr (.inl hmem)

theorem identifier_notMem_propParts (value : List Char) (prop : Option (List Char)) :
    .identifier value ∉ propParts prop := by
  unfold propParts
  intro hmem
  obtain ⟨v, -, heq⟩ := List.mem_map.mp hmem
  cases heq

/-- Only containers name their children. -/
theorem identifier_notMem_placeholderParts {c : ConId} (hview : s.isView c = true)
    (value : List Char) (p : Placeholder) : .identifier value ∉ s.placeholderParts c p := by
  cases p with
  | title =>
      unfold placeholderParts titlePlaceholderParts
      rw [if_pos hview]
      exact identifier_notMem_propParts value _
  | prop v => exact identifier_notMem_propParts value v

theorem identifier_notMem_formatParts {c : ConId} (hview : s.isView c = true) (value : List Char)
    (format : List Char) : .identifier value ∉ s.formatParts c format := by
  induction hn : format.length using Nat.strong_induction_on generalizing format with
  | _ n ih =>
      unfold formatParts
      split
      next => simp
      next percent rest hnext =>
        have hle := (List.dropWhile_suffix (l := format) (· != '%')).length_le
        rw [hnext, List.length_cons] at hle
        split
        next n' p hplaceholder =>
          have hpos := s.placeholder_pos hplaceholder
          have hrest := ih ((percent :: rest).drop n').length
            (by rw [List.length_drop, List.length_cons]; omega) _ rfl
          rw [List.mem_cons, List.mem_append]
          rintro (hmem | hmem | hmem)
          · cases hmem
          · exact identifier_notMem_placeholderParts hview value p hmem
          · exact hrest hmem
        next hplaceholder =>
          have hrest := ih rest.length (by omega) _ rfl
          rw [List.mem_cons, List.mem_cons]
          rintro (hmem | hmem | hmem)
          · cases hmem
          · cases hmem
          · exact hrest hmem

theorem identifier_notMem_titleParts {c : ConId} (hview : s.isView c = true) (value : List Char) :
    .identifier value ∉ s.titleParts c := by
  have htitle := identifier_notMem_placeholderParts hview value .title
  unfold titleParts
  split
  · exact htitle
  · split_ifs
    · exact htitle
    · exact identifier_notMem_formatParts hview value _

/-- A text that begins with `%` is looked for from one `%` to the next. -/
theorem infix_dropWhile {t : List Char} (format : List Char) :
    '%' :: t <:+: format ↔ '%' :: t <:+: format.dropWhile (· != '%') := by
  induction format with
  | nil => exact Iff.rfl
  | cons c format ih =>
      by_cases hc : c = '%'
      · rw [List.dropWhile_cons_of_neg (by simp [hc])]
      · have hfirst : ¬ '%' :: t <+: c :: format := fun h =>
          hc (List.cons_prefix_cons.mp h).1.symm
        rw [List.dropWhile_cons_of_pos (by simpa using hc), ← ih, List.infix_cons_iff]
        exact or_iff_right hfirst

/-- A container that is no view names its children where its format has `%title`. -/
theorem identifier_mem_formatParts {c : ConId} (hview : s.isView c = false) (value : List Char)
    (format : List Char) : .identifier value ∈ s.formatParts c format ↔
      "%title".toList <:+: format ∧ .identifier value ∈ s.titlePlaceholderParts c := by
  have hnoView : ¬ s.isView c = true := by
    rw [hview]
    exact Bool.false_ne_true
  induction hn : format.length using Nat.strong_induction_on generalizing format with
  | _ n ih =>
      have hasTitle : "%title".toList <:+: format ↔
          "%title".toList <:+: format.dropWhile (· != '%') := infix_dropWhile format
      rw [hasTitle]
      unfold formatParts
      split
      next hnext =>
        rw [hnext, List.infix_nil]
        constructor
        · exact fun hmem => by cases List.mem_singleton.mp hmem
        · exact fun hmem => absurd hmem.1 (by decide)
      next percent rest hnext =>
        have hle := (List.dropWhile_suffix (l := format) (· != '%')).length_le
        rw [hnext, List.length_cons] at hle
        rw [hnext]
        by_cases htitle : "%title".toList.isPrefixOf (percent :: rest) = true
        · -- the representation is shown here
          have hplaceholder : s.placeholder c (percent :: rest) =
              some ("%title".toList.length, .title) := if_pos htitle
          have hshown : "%title".toList <:+: percent :: rest :=
            (List.isPrefixOf_iff_prefix.mp htitle).isInfix
          split
          next n' p hp =>
            obtain ⟨rfl, rfl⟩ := Prod.mk.inj (Option.some.inj (hplaceholder.symm.trans hp))
            have hrest := ih ((percent :: rest).drop "%title".toList.length).length
              (by rw [List.length_drop, List.length_cons]; simp; omega) _ rfl
            rw [List.mem_cons, List.mem_append]
            constructor
            · rintro (hmem | hmem | hmem)
              · cases hmem
              · exact ⟨hshown, hmem⟩
              · exact ⟨hshown, (hrest.mp hmem).2⟩
            · exact fun hmem => .inr (.inl hmem.2)
          next hp =>
            rw [hplaceholder] at hp
            cases hp
        · have hplaceholder : s.placeholder c (percent :: rest) = none := by
            unfold placeholder
            rw [if_neg htitle, if_neg hnoView]
          have hlater : "%title".toList <:+: percent :: rest ↔ "%title".toList <:+: rest := by
            rw [List.infix_cons_iff]
            exact or_iff_right fun h => htitle (List.isPrefixOf_iff_prefix.mpr h)
          split
          next n' p hp =>
            rw [hplaceholder] at hp
            cases hp
          next hp =>
            have hrest := ih rest.length (by omega) _ rfl
            rw [List.mem_cons, List.mem_cons, hlater]
            constructor
            · rintro (hmem | hmem | hmem)
              · cases hmem
              · cases hmem
              · exact hrest.mp hmem
            · exact fun hmem => .inr (.inr (hrest.mpr hmem))

/-- What a container that is no view names in its title. -/
theorem identifier_mem_titleParts {c : ConId} (hview : s.isView c = false) (value : List Char) :
    .identifier value ∈ s.titleParts c ↔ s.ShowsRepresentation c ∧
      ∃ child ∈ (s.state.tree.con c).children, s.isView child = true ∧
        ((s.titles.props child).class <|> (s.titles.props child).appId) = some value := by
  have hnoView : ¬ s.isView c = true := by
    rw [hview]
    exact Bool.false_ne_true
  have htitle : .identifier value ∈ s.titlePlaceholderParts c ↔
      ∃ child ∈ (s.state.tree.con c).children, s.isView child = true ∧
        ((s.titles.props child).class <|> (s.titles.props child).appId) = some value := by
    unfold titlePlaceholderParts
    rw [if_neg hnoView]
    exact identifier_mem_representationParts _ _
  rw [← htitle]
  unfold titleParts ShowsRepresentation
  cases s.titles.titleFormat c with
  | none => simp
  | some format =>
      have hshows : (∀ f ∈ some format, "%title".toList <:+: cString f) ↔
          "%title".toList <:+: cString format :=
        ⟨fun h => h format rfl, fun h f hf => Option.some.inj hf ▸ h⟩
      dsimp only
      rw [hshows]
      split_ifs with hwhole
      · rw [hwhole]
        exact (and_iff_right List.infix_rfl).symm
      · exact identifier_mem_formatParts hview value _

theorem clean_iff (c : ConId) : s.Clean c ↔
    ∀ value, .identifier value ∈ s.titleParts c → ∀ x ∈ cString value, ¬ IsMarkup x := by
  cases hview : s.isView c with
  | true =>
      constructor
      · exact fun _ value hmem => absurd hmem (identifier_notMem_titleParts hview value)
      · intro _ hno
        rw [hview] at hno
        cases hno
  | false =>
      constructor
      · intro hclean value hmem
        obtain ⟨hshows, child, hchild, hcview, hvalue⟩ :=
          (identifier_mem_titleParts hview value).mp hmem
        exact hclean hview hshows child hchild hcview value hvalue
      · intro h _ hshows child hchild hcview name hname
        exact h name ((identifier_mem_titleParts hview name).mpr
          ⟨hshows, child, hchild, hcview, hname⟩)

end TitleState

/-! ## Which titles are safe -/

namespace TitleState

variable {s : TitleState} {titles : GlyphTitles}

/-- Of the parts of a title only the names can be unsafe. -/
theorem safe_partGlyphs (hmarkup : s.pangoMarkup = true) (hsafe : titles.Safe) {part : TitlePart}
    (hpart : ∀ value, part = .identifier value → ∀ x ∈ cString value, ¬ IsMarkup x) :
    ∀ g ∈ s.partGlyphs titles part, g.Safe := by
  intro g hg
  cases part with
  | own text =>
      obtain ⟨x, -, rfl⟩ := List.mem_map.mp hg
      exact fun hclient => by cases hclient
  | prop value =>
      obtain ⟨x, -, rfl⟩ := List.mem_map.mp hg
      exact fun _ _ => if_pos hmarkup
  | identifier value =>
      obtain ⟨x, hx, rfl⟩ := List.mem_map.mp hg
      exact fun _ hx' => absurd hx' (hpart value rfl x hx)
  | child c =>
      unfold partGlyphs at hg
      cases hc : titles c with
      | none =>
          dsimp only at hg
          rw [hc] at hg
          cases hg
      | some gs =>
          dsimp only at hg
          rw [hc] at hg
          exact hsafe c gs hc g hg

theorem safe_titleGlyphs (hmarkup : s.pangoMarkup = true) (hsafe : titles.Safe) {c : ConId}
    (hclean : s.Clean c) : ∀ g ∈ s.titleGlyphs titles c, g.Safe := by
  intro g hg
  obtain ⟨part, hpart, hg⟩ := List.mem_flatMap.mp hg
  refine safe_partGlyphs hmarkup hsafe (fun value hvalue => ?_) g hg
  exact (clean_iff c).mp hclean value (hvalue ▸ hpart)

/-- A name with markup makes a title unsafe. -/
theorem clean_of_safe {c : ConId} (h : ∀ g ∈ s.titleGlyphs titles c, g.Safe) : s.Clean c := by
  rw [clean_iff]
  intro value hvalue x hx hmarkup
  have hg : (⟨x, true, 0⟩ : Glyph) ∈ s.titleGlyphs titles c :=
    List.mem_flatMap.mpr ⟨_, hvalue, List.mem_map_of_mem hx⟩
  exact absurd (h _ hg rfl hmarkup) Nat.zero_ne_one

end TitleState

namespace TracedTitles

/-- The containers whose titles are made again. -/
def updatedWithin (t : Tree) : Nat → ConId → List ConId
  | 0, _ => []
  | n + 1, c =>
      c :: match (t.con c).parent with
        | some parent => updatedWithin t n parent
        | none => []

/-- No title that a step makes names a child by a name with markup. -/
def Clean (w : TracedTitles) : TitleStep → Prop
  | .containerUpdateRepresentation c =>
      ∀ d ∈ updatedWithin w.titles.state.tree w.titles.state.tree.nextCon c, w.titles.Clean d
  | .change _ _ _ => True
  | .viewUpdateTitle _ _ => True
  | .workspaceUpdateRepresentation _ => True

variable {w : TracedTitles}

theorem state_retitle (w : TracedTitles) (c : ConId) :
    (w.retitle c).titles.state = w.titles.state := by
  change ((w.titles.retitle c).getD w.titles).state = _
  rw [TitleState.retitle_eq]
  dsimp only [Option.getD_some]
  split_ifs <;> rfl

theorem clean_retitle (w : TracedTitles) (c d : ConId) :
    (w.retitle c).titles.Clean d ↔ w.titles.Clean d := by
  change ((w.titles.retitle c).getD w.titles).Clean d ↔ _
  rw [TitleState.retitle_eq]
  dsimp only [Option.getD_some]
  split_ifs <;> exact Iff.rfl

/-- The titles are safe again when the new one is. -/
theorem safe_update {titles : GlyphTitles} (hsafe : titles.Safe) {c : ConId}
    {gs : Option (List Glyph)} (h : ∀ l ∈ gs, ∀ g ∈ l, g.Safe) :
    GlyphTitles.Safe (Function.update titles c gs) := by
  intro d
  by_cases hd : d = c
  · rw [hd, Function.update_self]
    exact h
  · rw [Function.update_of_ne hd]
    exact hsafe d

theorem safe_retitle (hsafe : w.glyphs.Safe) {c : ConId} (hclean : w.titles.Clean c) :
    (w.retitle c).glyphs.Safe := by
  unfold retitle
  dsimp only
  split_ifs
  · exact hsafe
  · refine safe_update hsafe fun l hl => ?_
    obtain rfl := Option.some.inj hl
    exact TitleState.safe_titleGlyphs w.markup hsafe hclean

/-- A title that names a child by a name with markup is not safe. -/
theorem not_safe_retitle {c : ConId} (hclean : ¬ w.titles.Clean c) :
    ¬ ∀ l ∈ (w.retitle c).glyphs c, ∀ g ∈ l, g.Safe := by
  have hview : ¬ w.titles.isView c = true := fun hview =>
    hclean fun hno => by rw [hview] at hno; cases hno
  unfold retitle
  dsimp only
  rw [if_neg hview, Function.update_self]
  exact fun h => hclean (TitleState.clean_of_safe (h _ rfl))

/-- It stays so, whatever other titles are made. -/
theorem not_safe_updateRepresentationWithin (n : Nat) (w : TracedTitles) (d : ConId) {c : ConId}
    (hclean : ¬ w.titles.Clean c) (h : ¬ ∀ l ∈ w.glyphs c, ∀ g ∈ l, g.Safe) :
    ¬ ∀ l ∈ (updateRepresentationWithin n w d).glyphs c, ∀ g ∈ l, g.Safe := by
  induction n generalizing w d with
  | zero => exact h
  | succ n ih =>
      have hnext : ¬ ∀ l ∈ (w.retitle d).glyphs c, ∀ g ∈ l, g.Safe := by
        by_cases hd : c = d
        · subst hd
          exact not_safe_retitle hclean
        · unfold retitle
          dsimp only
          split_ifs
          · exact h
          · rwa [Function.update_of_ne hd]
      unfold updateRepresentationWithin
      dsimp only
      split
      · exact ih _ _ (fun hc => hclean ((clean_retitle w d c).mp hc)) hnext
      · exact hnext
      · exact hnext

/-- **`container_update_representation`** keeps the titles safe when no title that it makes names a
child by a name with markup. -/
theorem safe_updateRepresentationWithin (n : Nat) (w : TracedTitles) (c : ConId)
    (hsafe : w.glyphs.Safe) : (updateRepresentationWithin n w c).glyphs.Safe ↔
      ∀ d ∈ updatedWithin w.titles.state.tree n c, w.titles.Clean d := by
  induction n generalizing w c with
  | zero => exact iff_of_true hsafe fun d hd => by cases hd
  | succ n ih =>
      by_cases hclean : w.titles.Clean c
      · have hretitle := safe_retitle hsafe hclean
        have hcons (rest : List ConId) : (∀ d ∈ c :: rest, w.titles.Clean d) ↔
            ∀ d ∈ rest, w.titles.Clean d := by
          rw [List.forall_mem_cons]
          exact and_iff_right hclean
        unfold updateRepresentationWithin updatedWithin
        dsimp only
        rw [hcons, state_retitle]
        cases (w.titles.state.tree.con c).parent with
        | some parent =>
            rw [ih _ parent hretitle, state_retitle]
            exact forall₂_congr fun d _ => clean_retitle w c d
        | none =>
            refine iff_of_true ?_ fun d hd => by cases hd
            cases (w.titles.state.tree.con c).workspace with
            | some ws => exact hretitle
            | none => exact hretitle
      · refine iff_of_false (fun hall => ?_) fun hall => hclean (hall c List.mem_cons_self)
        have hnow := not_safe_retitle hclean
        have hclean' : ¬ (w.retitle c).titles.Clean c := fun h =>
          hclean ((clean_retitle w c c).mp h)
        unfold updateRepresentationWithin at hall
        dsimp only at hall
        split at hall
        · exact not_safe_updateRepresentationWithin n _ _ hclean' hnow (hall c)
        · exact hnow (hall c)
        · exact hnow (hall c)

theorem safe_viewUpdateTitle (hsafe : w.glyphs.Safe) {c : ConId} (hview : w.titles.isView c = true)
    (force : Bool) : (w.viewUpdateTitle c force).glyphs.Safe := by
  have hclean : w.titles.Clean c := fun hno => by rw [hview] at hno; cases hno
  unfold viewUpdateTitle
  dsimp only
  split_ifs
  · exact hsafe
  · refine safe_update hsafe fun l hl => ?_
    obtain rfl := Option.some.inj hl
    exact TitleState.safe_titleGlyphs w.markup hsafe hclean
  · exact safe_update hsafe fun l hl => by cases hl

/-- What a step does to titles that are safe. -/
theorem safe_apply (w : TracedTitles) (e : TitleStep) (hsafe : w.glyphs.Safe) :
    (w.apply e).glyphs.Safe ↔ w.Clean e := by
  cases e with
  | change state titles freed =>
      refine iff_of_true (fun c gs hgs => ?_) trivial
      unfold apply at hgs
      dsimp only at hgs
      split_ifs at hgs
      · cases hgs
      · exact hsafe c gs hgs
  | viewUpdateTitle c force =>
      refine iff_of_true ?_ trivial
      unfold apply
      dsimp only
      split_ifs with hview
      · exact safe_viewUpdateTitle hsafe hview force
      · exact hsafe
  | containerUpdateRepresentation c => exact safe_updateRepresentationWithin _ w c hsafe
  | workspaceUpdateRepresentation ws => exact iff_of_true hsafe trivial

/-- **Markup in titles**: in every run the titles stay safe from step to step exactly when no title
that is made names a child by a name with markup. -/
theorem formattedTitles_escaped_iff (state : State) (titles : Titles) (es : List TitleStep) :
    Allowed apply (fun w e => (w.apply e).glyphs.Safe) (start state titles) es ↔
      Allowed apply Clean (start state titles) es := by
  have hstart : (start state titles).glyphs.Safe := fun c gs hgs => by cases hgs
  exact Allowed.keeps_iff (fun w : TracedTitles => w.glyphs.Safe) safe_apply hstart

/-- A column of one window, whose client gives an application id but no class. -/
def taggedWindow (appId : List Char) : TracedTitles :=
  start
    { State.start configDefaults ⟨0, 0, 0, 0⟩ with
      tree := { Tree.start with
        con := fun c =>
          if c = 0 then { Links.blank with workspace := some 0, children := [1] }
          else { Links.blank with view := some View.plain, workspace := some 0, parent := some 0 }
        nextCon := 2 } }
    { props := fun _ => ⟨none, some appId, none, none, none, none, none, none⟩
      title := fun _ => none
      titleFormat := fun _ => none
      formattedTitle := fun _ => none
      representation := fun _ => none }

/-- The application id `<b>` comes into the title of the column as it is. -/
theorem formattedTitle_tag :
    ((taggedWindow "<b>".toList).apply (.containerUpdateRepresentation 0)).titles.titles.formattedTitle
        0 = some ("D[<b>]".toList ++ [nul]) ∧
      ¬ ((taggedWindow "<b>".toList).apply (.containerUpdateRepresentation 0)).glyphs.Safe := by
  refine ⟨by decide +kernel, fun h => ?_⟩
  have hglyphs : ((taggedWindow "<b>".toList).apply (.containerUpdateRepresentation 0)).glyphs 0 =
      some (["D[".toList.map fun c => ⟨c, false, 0⟩, "<b>".toList.map fun c => ⟨c, true, 0⟩,
        [⟨']', false, 0⟩]].flatten) := by decide +kernel
  exact absurd (h 0 _ hglyphs ⟨'<', true, 0⟩ (by decide) rfl (by decide)) (by decide)

end TracedTitles

end Swirl
