import Swirl.Common.Pango
import Swirl.Tree.State

set_option autoImplicit false

/-! # Titles

`parse_title_format` and `container_build_representation` are run twice, without a buffer for the
length and with one for the text, by everything that makes a title. A title is made of parts: what
the source and the title format say, what a client says, and the titles of children as they were
made before.
-/

namespace Swirl

open Lib

/-! ## Data -/

/-- What `view_get_title` and the other functions of its kind return. -/
structure ViewProps where
  title : Option (List Char)
  appId : Option (List Char)
  «class» : Option (List Char)
  «instance» : Option (List Char)
  shell : Option (List Char)
  sandboxEngine : Option (List Char)
  sandboxAppId : Option (List Char)
  sandboxInstanceId : Option (List Char)

/-- The titles of the containers and workspaces of a tree, and what they are made from. -/
structure Titles where
  props : ConId → ViewProps
  title : ConId → Option (List Char)
  titleFormat : ConId → Option (List Char)
  formattedTitle : ConId → Option (List Char)
  representation : WsId → Option (List Char)

/-- `config->pango_markup`, the tree and the titles. -/
structure TitleState where
  pangoMarkup : Bool
  state : State
  titles : Titles

namespace TitleState

variable (s : TitleState)

/-- `container->view` -/
def isView (c : ConId) : Bool := (s.state.tree.con c).view.isSome

def setFormattedTitle (c : ConId) (title : Option (List Char)) : TitleState :=
  { s with
    titles := { s.titles with formattedTitle := Function.update s.titles.formattedTitle c title } }

def setTitle (c : ConId) (title : Option (List Char)) : TitleState :=
  { s with titles := { s.titles with title := Function.update s.titles.title c title } }

def setRepresentation (w : WsId) (representation : Option (List Char)) : TitleState :=
  { s with
    titles :=
      { s.titles with
        representation := Function.update s.titles.representation w representation } }

/-! ## `container_build_representation` -/

/-- How a representation begins. -/
def layoutOpening : Layout → List Char
  | .vert => "V[".toList
  | .horiz => "H[".toList
  | .tabbed => "T[".toList
  | .stacked => "S[".toList
  | .none => "D[".toList

/-- What a child is called in a representation. -/
def identifier (child : ConId) : Option (List Char) :=
  if s.isView child then (s.titles.props child).class <|> (s.titles.props child).appId
  else s.titles.formattedTitle child

/-- The loop of `container_build_representation`, from a child on. -/
def representationLoop : Nat → Nat → List ConId → BufferM Char Nat
  | _, len, [] => pure len
  | i, len, child :: children => do
      let len ← if i ≠ 0 then do lenientStrcat [' ']; pure (len + 1) else pure len
      match s.identifier child with
      | some identifier => do
          lenientStrcat identifier
          representationLoop (i + 1) (len + strlen identifier) children
      | none => do
          lenientStrcat "(null)".toList
          representationLoop (i + 1) (len + strlen "(null)".toList) children

/-- `container_build_representation` -/
def containerBuildRepresentation (layout : Layout) (children : List ConId) :
    BufferM Char Nat := do
  lenientStrcat (layoutOpening layout)
  let len ← s.representationLoop 0 2 children
  lenientStrcat [']']
  pure (len + 1)

/-! ## `parse_title_format` -/

/-- `append_prop` -/
def appendProp : Option (List Char) → BufferM Char Nat
  | none => pure 0
  | some value =>
      if s.pangoMarkup then do
        let escapedValue ← escapePangoMarkup value
        lenientStrcat escapedValue
        pure (strlen escapedValue)
      else do
        lenientStrcat value
        pure (strlen value)

/-- What `%title` stands for. -/
def appendTitle (c : ConId) : BufferM Char Nat :=
  if s.isView c then s.appendProp (s.titles.props c).title
  else s.containerBuildRepresentation (s.state.geo c).layout (s.state.tree.con c).children

/-- The placeholders for the properties of a view, in the order in which they are looked for. -/
def propPlaceholders (props : ViewProps) : List (List Char × Option (List Char)) :=
  [("%app_id".toList, props.appId), ("%class".toList, props.class),
    ("%instance".toList, props.instance), ("%shell".toList, props.shell),
    ("%sandbox_engine".toList, props.sandboxEngine),
    ("%sandbox_app_id".toList, props.sandboxAppId),
    ("%sandbox_instance_id".toList, props.sandboxInstanceId)]

/-- What a placeholder stands for. -/
inductive Placeholder where
  | title
  | prop (value : Option (List Char))

/-- The placeholder that a text begins with, and its length. -/
def placeholder (c : ConId) (next : List Char) : Option (Nat × Placeholder) :=
  if "%title".toList.isPrefixOf next then some ("%title".toList.length, .title)
  else if s.isView c then
    ((propPlaceholders (s.titles.props c)).find? fun p => p.1.isPrefixOf next).map fun p =>
      (p.1.length, .prop p.2)
  else none

/-- What a placeholder stands for is appended. -/
def appendPlaceholder (c : ConId) : Placeholder → BufferM Char Nat
  | .title => s.appendTitle c
  | .prop value => s.appendProp value

/-- Every placeholder has some characters. -/
theorem placeholder_pos {c : ConId} {next : List Char} {n : Nat} {p : Placeholder}
    (h : s.placeholder c next = some (n, p)) : 0 < n := by
  unfold placeholder at h
  split_ifs at h
  · obtain ⟨rfl, -⟩ := Prod.mk.inj (Option.some.inj h)
    decide
  · obtain ⟨q, hq, heq⟩ := Option.map_eq_some_iff.mp h
    obtain ⟨rfl, -⟩ := Prod.mk.inj heq
    have hall : ∀ q ∈ propPlaceholders (s.titles.props c), 0 < q.1.length := by
      unfold propPlaceholders
      simp
    exact hall q (List.mem_of_find?_eq_some hq)

/-- The loop of `parse_title_format`, from a place of the format on. -/
def formatLoop (c : ConId) (len : Nat) (format : List Char) : BufferM Char Nat :=
  match _hnext : format.dropWhile (· != '%') with
  | [] => do
      lenientStrcat format
      pure (len + format.length)
  | percent :: rest => do
      let copied := format.take (format.length - (percent :: rest).length)
      lenientStrcat copied
      let len := len + copied.length
      match _hplaceholder : s.placeholder c (percent :: rest) with
      | some (n, p) => do
          let added ← s.appendPlaceholder c p
          formatLoop c (len + added) ((percent :: rest).drop n)
      | none => do
          lenientStrcat ['%']
          formatLoop c (len + 1) rest
termination_by format.length
decreasing_by
  all_goals
    have hle := (List.dropWhile_suffix (l := format) (· != '%')).length_le
    rw [_hnext, List.length_cons] at hle
  · have hpos := s.placeholder_pos _hplaceholder
    rw [List.length_drop, List.length_cons]
    omega
  · omega

/-- `parse_title_format` -/
def parseTitleFormat (c : ConId) : BufferM Char Nat :=
  match s.titles.titleFormat c with
  | none => s.appendTitle c
  | some format =>
      if cString format = "%title".toList then s.appendTitle c
      else s.formatLoop c 0 (cString format)

/-! ## What makes titles -/

/-- A buffer of the length that is counted is allocated and filled. -/
def measured (m : BufferM Char Nat) : Option (Nat × List Char) := do
  let (len, _) ← m none
  let (_, buffer) ← m (some (List.replicate (len + 1) nul))
  pure (len, buffer.getD [])

/-- `workspace_update_representation` -/
def workspaceUpdateRepresentation (w : WsId) : Option TitleState := do
  let (_, buffer) ← measured
    (s.containerBuildRepresentation (s.state.wsGeo w).layout (s.state.tree.ws w).tiling)
  pure (s.setRepresentation w buffer)

/-- The title of a container that is no view is made again. -/
def retitle (c : ConId) : Option TitleState :=
  if s.isView c then some s
  else do
    let (_, buffer) ← measured (s.parseTitleFormat c)
    pure (s.setFormattedTitle c buffer)

/-- `container_update_representation`, which goes on with the parent or the workspace, cut after a
number of containers. -/
def updateRepresentationWithin : Nat → TitleState → ConId → Option TitleState
  | 0, s, _ => some s
  | n + 1, s, c => do
      let s ← s.retitle c
      match (s.state.tree.con c).parent, (s.state.tree.con c).workspace with
      | some parent, _ => updateRepresentationWithin n s parent
      | none, some workspace => s.workspaceUpdateRepresentation workspace
      | none, none => some s

/-- `container_update_representation` -/
def containerUpdateRepresentation (c : ConId) : Option TitleState :=
  updateRepresentationWithin s.state.tree.nextCon s c

/-- `view_update_title`, of the container of a view. -/
def viewUpdateTitle (c : ConId) (force : Bool) : Option TitleState :=
  let title := (s.titles.props c).title
  if !force ∧ title.map cString = (s.titles.title c).map cString then some s
  else do
    let (len, buffer) ← measured (s.parseTitleFormat c)
    pure ((s.setFormattedTitle c (if len ≠ 0 then some buffer else none)).setTitle c title)

/-! ## The parts of a title -/

/-- What a title is made of: a text of the source or of a title format, a property of a view, what a
view is called in the representation of its parent, or the title of a child. -/
inductive TitlePart where
  | own (text : List Char)
  | prop (value : List Char)
  | identifier (value : List Char)
  | child (c : ConId)

/-- The text of a part. -/
def partText : TitlePart → List Char
  | .own text => text
  | .prop value => if s.pangoMarkup then escapeText (cString value) else cString value
  | .identifier value => cString value
  | .child c => cString ((s.titles.formattedTitle c).getD [])

def partsText (parts : List TitlePart) : List Char := parts.flatMap s.partText

def childPart (child : ConId) : TitlePart :=
  match s.identifier child with
  | none => .own "(null)".toList
  | some identifier => if s.isView child then .identifier identifier else .child child

def childParts : Nat → List ConId → List TitlePart
  | _, [] => []
  | i, child :: children =>
      (if i ≠ 0 then [.own [' ']] else []) ++ s.childPart child :: childParts (i + 1) children

def representationParts (layout : Layout) (children : List ConId) : List TitlePart :=
  .own (layoutOpening layout) :: (s.childParts 0 children ++ [.own [']']])

def propParts (value : Option (List Char)) : List TitlePart := value.toList.map .prop

def titlePlaceholderParts (c : ConId) : List TitlePart :=
  if s.isView c then propParts (s.titles.props c).title
  else s.representationParts (s.state.geo c).layout (s.state.tree.con c).children

def placeholderParts (c : ConId) : Placeholder → List TitlePart
  | .title => s.titlePlaceholderParts c
  | .prop value => propParts value

/-- The parts of a title from a place of the format on. -/
def formatParts (c : ConId) (format : List Char) : List TitlePart :=
  match _hnext : format.dropWhile (· != '%') with
  | [] => [.own format]
  | percent :: rest =>
      .own (format.take (format.length - (percent :: rest).length)) ::
        match _hplaceholder : s.placeholder c (percent :: rest) with
        | some (n, p) => s.placeholderParts c p ++ formatParts c ((percent :: rest).drop n)
        | none => .own ['%'] :: formatParts c rest
termination_by format.length
decreasing_by
  all_goals
    have hle := (List.dropWhile_suffix (l := format) (· != '%')).length_le
    rw [_hnext, List.length_cons] at hle
  · have hpos := s.placeholder_pos _hplaceholder
    rw [List.length_drop, List.length_cons]
    omega
  · omega

/-- The parts of the title of a container. -/
def titleParts (c : ConId) : List TitlePart :=
  match s.titles.titleFormat c with
  | none => s.titlePlaceholderParts c
  | some format =>
      if cString format = "%title".toList then s.titlePlaceholderParts c
      else s.formatParts c (cString format)

/-! ## Counting and writing -/

/-- The computation writes the text of some parts, and returns how many characters there are then,
counted from a number on. -/
def Gives (m : BufferM Char Nat) (len : Nat) (parts : List TitlePart) : Prop :=
  Appends nul m (len + (s.partsText parts).length) (s.partsText parts)

variable {s}

theorem partsText_append (parts parts' : List TitlePart) :
    s.partsText (parts ++ parts') = s.partsText parts ++ s.partsText parts' :=
  List.flatMap_append

theorem strcat_writes (source : List Char) :
    Appends nul (lenientStrcat source) ⟨⟩ (cString source) := Appends.cat source

theorem nul_notMem_escapeText {src : List Char} (h : nul ∉ src) : nul ∉ escapeText src :=
  (escapeLoop_writes 0 h).plain

/-- What comes first is written, and counted, first. -/
theorem Gives.after {m : BufferM Char Nat} {f : Nat → BufferM Char Nat} {len : Nat}
    {parts parts' : List TitlePart} (hm : s.Gives m len parts)
    (hf : s.Gives (f (len + (s.partsText parts).length)) (len + (s.partsText parts).length) parts') :
    s.Gives (m >>= f) len (parts ++ parts') := by
  unfold Gives at hm hf ⊢
  rw [partsText_append, List.length_append, ← Nat.add_assoc]
  exact hm.bind hf

/-- A string is appended that is the text of a part. -/
theorem Gives.strcat {m : BufferM Char Nat} {source : List Char} {part : TitlePart} {len : Nat}
    {parts : List TitlePart} (hsource : cString source = s.partText part)
    (hm : s.Gives m (len + (s.partText part).length) parts) :
    s.Gives (do lenientStrcat source; m) len (part :: parts) := by
  have hparts : s.partsText (part :: parts) = s.partText part ++ s.partsText parts :=
    List.flatMap_cons
  have hwrites := strcat_writes source
  rw [hsource] at hwrites
  unfold Gives at hm ⊢
  rw [hparts, List.length_append, ← Nat.add_assoc]
  exact hwrites.bind hm

theorem Gives.nil (len : Nat) : s.Gives (pure len) len [] := Appends.pure len

/-- A string is appended last. -/
theorem Gives.last {source : List Char} {part : TitlePart} {len n : Nat}
    (hsource : cString source = s.partText part) (hn : n = len + (s.partText part).length) :
    s.Gives (do lenientStrcat source; pure n) len [part] := by
  rw [hn]
  exact Gives.strcat hsource (Gives.nil _)

theorem appendProp_gives (value : Option (List Char)) :
    s.Gives (s.appendProp value) 0 (propParts value) := by
  cases value with
  | none => exact Gives.nil 0
  | some value =>
      unfold appendProp
      dsimp only
      by_cases hpango : s.pangoMarkup = true
      · have htext : s.partText (.prop value) = escapeText (cString value) := if_pos hpango
        have hescaped : cString (escapeText (cString value) ++ [nul]) = s.partText (.prop value) := by
          rw [htext]
          exact content_plain (nul_notMem_escapeText (nul_notMem_cString value)) []
        have hlength : strlen (escapeText (cString value) ++ [nul]) =
            0 + (s.partText (.prop value)).length := by
          unfold strlen
          rw [hescaped, Nat.zero_add]
        rw [if_pos hpango, escapePangoMarkup_eq]
        exact Gives.last hescaped hlength
      · have htext : cString value = s.partText (.prop value) := (if_neg hpango).symm
        have hlength : strlen value = 0 + (s.partText (.prop value)).length := by
          unfold strlen
          rw [htext, Nat.zero_add]
        rw [if_neg hpango]
        exact Gives.last htext hlength

/-- The part for a child is what is appended for it. -/
theorem childPart_text (child : ConId) :
    s.partText (s.childPart child) = (s.identifier child).elim "(null)".toList cString := by
  unfold childPart
  cases hidentifier : s.identifier child with
  | none => rfl
  | some identifier =>
      dsimp only
      by_cases hview : s.isView child = true
      · rw [if_pos hview]
        rfl
      · rw [if_neg hview]
        unfold TitleState.identifier at hidentifier
        rw [if_neg hview] at hidentifier
        change cString ((s.titles.formattedTitle child).getD []) = cString identifier
        rw [hidentifier]
        rfl

theorem representationLoop_gives (i len : Nat) (children : List ConId) :
    s.Gives (s.representationLoop i len children) len (s.childParts i children) := by
  induction children generalizing i len with
  | nil => exact Gives.nil len
  | cons child children ih =>
      have hchild (len : Nat) : s.Gives
          (match s.identifier child with
            | some identifier => do
                lenientStrcat identifier
                s.representationLoop (i + 1) (len + strlen identifier) children
            | none => do
                lenientStrcat "(null)".toList
                s.representationLoop (i + 1) (len + strlen "(null)".toList) children)
          len (s.childPart child :: s.childParts (i + 1) children) := by
        have htext := s.childPart_text child
        cases hidentifier : s.identifier child with
        | none =>
            rw [hidentifier] at htext
            refine Gives.strcat htext.symm ?_
            rw [htext]
            exact ih (i + 1) _
        | some identifier =>
            rw [hidentifier] at htext
            refine Gives.strcat htext.symm ?_
            rw [htext]
            exact ih (i + 1) _
      unfold representationLoop childParts
      by_cases hi : i ≠ 0
      · -- a space is between two children
        rw [if_pos hi, if_pos hi]
        exact Gives.strcat rfl (hchild (len + 1))
      · rw [if_neg hi, if_neg hi]
        exact hchild len

theorem containerBuildRepresentation_gives (layout : Layout) (children : List ConId) :
    s.Gives (s.containerBuildRepresentation layout children) 0
      (s.representationParts layout children) := by
  have hopening : cString (layoutOpening layout) = layoutOpening layout ∧
      (layoutOpening layout).length = 2 := by
    cases layout <;> decide
  have hchildren := s.representationLoop_gives 0 2 children
  unfold containerBuildRepresentation representationParts
  refine Gives.strcat (hopening.1.trans rfl) ?_
  have hlength : (s.partText (.own (layoutOpening layout))).length = 2 := hopening.2
  rw [hlength]
  exact Gives.after hchildren (Gives.last rfl rfl)

theorem appendTitle_gives (c : ConId) :
    s.Gives (s.appendTitle c) 0 (s.titlePlaceholderParts c) := by
  unfold appendTitle titlePlaceholderParts
  split_ifs
  · exact appendProp_gives _
  · exact containerBuildRepresentation_gives _ _

theorem appendPlaceholder_gives (c : ConId) (p : Placeholder) :
    s.Gives (s.appendPlaceholder c p) 0 (s.placeholderParts c p) := by
  cases p with
  | title => exact appendTitle_gives c
  | prop value => exact appendProp_gives value

/-- What is counted from nothing on is added to what was counted before. -/
theorem Gives.added {m : BufferM Char Nat} (f : Nat → BufferM Char Nat) {len : Nat}
    {parts parts' : List TitlePart} (hm : s.Gives m 0 parts)
    (hf : s.Gives (f (len + (s.partsText parts).length)) (len + (s.partsText parts).length) parts') :
    s.Gives (do let added ← m; f (len + added)) len (parts ++ parts') := by
  unfold Gives at hm hf ⊢
  rw [Nat.zero_add] at hm
  rw [partsText_append, List.length_append, ← Nat.add_assoc]
  exact hm.bind hf

theorem formatLoop_gives (c : ConId) (len : Nat) (format : List Char) (h : nul ∉ format) :
    s.Gives (s.formatLoop c len format) len (s.formatParts c format) := by
  induction hn : format.length using Nat.strong_induction_on generalizing len format with
  | _ n ih =>
      unfold formatLoop formatParts
      split
      next hnext =>
        exact Gives.last (content_of_not_mem h) rfl
      next percent rest hnext =>
        have hsuffix : percent :: rest <:+ format := by
          rw [← hnext]
          exact List.dropWhile_suffix _
        have hshorter := hsuffix.length_le
        rw [List.length_cons] at hshorter
        have hrest : nul ∉ percent :: rest := fun hmem => h (hsuffix.subset hmem)
        refine Gives.strcat (content_of_not_mem fun hmem => h (List.mem_of_mem_take hmem)) ?_
        split
        next n' p hplaceholder =>
          have hpos := s.placeholder_pos hplaceholder
          have hnext (len : Nat) : s.Gives (s.formatLoop c len ((percent :: rest).drop n')) len
              (s.formatParts c ((percent :: rest).drop n')) := by
            refine ih _ ?_ len _ (fun hmem => ?_) rfl
            · rw [List.length_drop, List.length_cons]
              omega
            · exact hrest (List.mem_of_mem_drop hmem)
          exact Gives.added (s.formatLoop c · ((percent :: rest).drop n')) (appendPlaceholder_gives c p)
            (hnext _)
        next hplaceholder =>
          refine Gives.strcat rfl (ih _ ?_ _ _ (fun hmem => ?_) rfl)
          · omega
          · exact hrest (List.mem_cons_of_mem percent hmem)

theorem parseTitleFormat_gives (c : ConId) :
    s.Gives (s.parseTitleFormat c) 0 (s.titleParts c) := by
  unfold parseTitleFormat titleParts
  cases s.titles.titleFormat c with
  | none => exact appendTitle_gives c
  | some format =>
      dsimp only
      split_ifs
      · exact appendTitle_gives c
      · exact formatLoop_gives c 0 _ (nul_notMem_cString format)

/-- The length without a buffer is that of the string in a cleared buffer of one character more. -/
def LengthAgrees (m : BufferM Char Nat) : Prop :=
  ∃ len buffer, m none = some (len, none) ∧
    m (some (List.replicate (len + 1) nul)) = some (len, some buffer) ∧ strlen buffer = len

theorem Gives.plain {m : BufferM Char Nat} {len : Nat} {parts : List TitlePart}
    (h : s.Gives m len parts) : cString (s.partsText parts ++ [nul]) = s.partsText parts :=
  content_plain (h 0).plain []

theorem Gives.lengthAgrees {m : BufferM Char Nat} {parts : List TitlePart}
    (h : s.Gives m 0 parts) : LengthAgrees m := by
  have hplain := h.plain
  unfold Gives at h
  rw [Nat.zero_add] at h
  obtain ⟨hcounts, hfills⟩ := h.measured
  refine ⟨_, _, hcounts, hfills, ?_⟩
  unfold strlen
  rw [hplain]

theorem Gives.measured_eq {m : BufferM Char Nat} {parts : List TitlePart} (h : s.Gives m 0 parts) :
    TitleState.measured m = some ((s.partsText parts).length, s.partsText parts ++ [nul]) := by
  unfold Gives at h
  rw [Nat.zero_add] at h
  obtain ⟨hcounts, hfills⟩ := h.measured
  unfold TitleState.measured
  rw [hcounts]
  dsimp only [bind, Option.bind]
  rw [hfills]
  rfl

/-- The title that a container gets. -/
theorem retitle_eq (s : TitleState) (c : ConId) : s.retitle c =
    some (if s.isView c then s
      else s.setFormattedTitle c (some (s.partsText (s.titleParts c) ++ [nul]))) := by
  unfold retitle
  rw [(s.parseTitleFormat_gives c).measured_eq]
  split_ifs <;> rfl

theorem workspaceUpdateRepresentation_eq (s : TitleState) (w : WsId) :
    s.workspaceUpdateRepresentation w = some (s.setRepresentation w (some (s.partsText
      (s.representationParts (s.state.wsGeo w).layout (s.state.tree.ws w).tiling) ++ [nul]))) := by
  have hgives := s.containerBuildRepresentation_gives (s.state.wsGeo w).layout
    (s.state.tree.ws w).tiling
  unfold workspaceUpdateRepresentation
  rw [hgives.measured_eq]
  rfl

/-- The title that the container of a view gets. -/
theorem viewUpdateTitle_isSome (s : TitleState) (c : ConId) (force : Bool) :
    (s.viewUpdateTitle c force).isSome = true := by
  unfold viewUpdateTitle
  rw [(s.parseTitleFormat_gives c).measured_eq]
  dsimp only
  split_ifs <;> rfl

theorem updateRepresentationWithin_isSome (n : Nat) (s : TitleState) (c : ConId) :
    (updateRepresentationWithin n s c).isSome = true := by
  induction n generalizing s c with
  | zero => rfl
  | succ n ih =>
      unfold updateRepresentationWithin
      rw [retitle_eq]
      dsimp only [bind, Option.bind]
      split
      · exact ih _ _
      · rw [workspaceUpdateRepresentation_eq]
        rfl
      · rfl

/-- **The length of a title** that is counted is that of the title, so that nothing is written
outside the buffers that are allocated for titles. -/
theorem titleLength_agrees (s : TitleState) :
    (∀ c, LengthAgrees (s.parseTitleFormat c)) ∧
    (∀ layout children, LengthAgrees (s.containerBuildRepresentation layout children)) ∧
    (∀ n c, (updateRepresentationWithin n s c).isSome = true) ∧
    ∀ w, (s.workspaceUpdateRepresentation w).isSome = true := by
  refine ⟨fun c => (s.parseTitleFormat_gives c).lengthAgrees,
    fun layout children => (s.containerBuildRepresentation_gives layout children).lengthAgrees,
    fun n c => updateRepresentationWithin_isSome n s c, fun w => ?_⟩
  rw [workspaceUpdateRepresentation_eq]
  rfl

end TitleState

end Swirl
