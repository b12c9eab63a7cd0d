import Swirl.Common.QuotedArgs
import Swirl.Config.StoredConfig
import Swirl.Config.Variables
import Mathlib.Combinatorics.Enumerative.DyckWord

set_option autoImplicit false

/-! # Blocks of a config file

`config_command` tells `read_config` where a block begins and where one ends, before it looks for a
handler. What the handlers do is a parameter; none of them begins or ends a block.

The openings and the ends of a file are a word of two letters, and they match up when it is a Dyck
word. An end without an opening is reported, but blocks that are open when the file ends are not:
nothing looks at the stack then.
-/

namespace Swirl

open DyckStep Lib

/-! ## `config_command` -/

/-- `handlers` -/
def handlers : List String :=
  ["assign", "bar", "bindcode", "bindgesture", "bindswitch", "bindsym", "client.background",
    "client.focused", "client.focused_inactive", "client.focused_tab_title", "client.placeholder",
    "client.unfocused", "client.urgent", "column_width", "corner_radius", "default_border",
    "default_floating_border", "exec", "exec-range", "exec-range-exit", "exec_always",
    "floating_maximum_size", "floating_minimum_size", "floating_modifier", "floating_snap", "focus",
    "focus_follows_mouse", "focus_on_window_activation", "focus_wrapping", "font", "for_window",
    "force_display_urgency_hint", "force_focus_wrapping", "fullscreen", "gaps", "hide_edge_borders",
    "input", "mode", "mouse_warping", "new_float", "new_window", "no_focus", "opacity", "output",
    "popup_during_fullscreen", "seat", "set", "shadow", "show_marks", "smart_borders", "smart_gaps",
    "tiling_drag", "tiling_drag_threshold", "title_align", "titlebar_border_thickness",
    "titlebar_padding", "unbindcode", "unbindgesture", "unbindswitch", "unbindsym", "workspace",
    "workspace_auto_back_and_forth"]

/-- `config_handlers` -/
def configHandlers : List String :=
  ["default_orientation", "env", "include", "primary_selection", "swaybg_command",
    "swaynag_command", "workspace_layout", "xwayland"]

/-- `command_handlers` -/
def commandHandlers : List String :=
  ["allow_tearing", "border", "create_output", "default_float", "evenh", "evenv", "exit",
    "floating", "fullscreen", "inhibit_idle", "kill", "layout", "mark", "max_render_time",
    "maximize", "minimize", "move", "nop", "overview", "pull", "release", "reload", "rename",
    "resize", "scratchpad", "shortcuts_inhibitor", "split", "splith", "splitt", "splitv", "sticky",
    "swap", "take", "title_format", "unmark", "urgent"]

/-- `find_handler`, with the name of the handler for the handler. -/
def findHandler (line : Line) (handlers : List String) : Option String :=
  handlers.find? fun command => sameIgnoringCase command (String.ofList line)

/-- `find_core_handler` -/
def findCoreHandler (reading active : Bool) (line : Line) : Option String :=
  (if reading then findHandler line configHandlers
    else if active then findHandler line commandHandlers else none) <|> findHandler line handlers

/-- What a handler returns. -/
inductive HandlerStatus where
  | success
  | failure
  | invalid
  | defer
  deriving DecidableEq, Repr

def HandlerStatus.toCmd : HandlerStatus → CmdStatus
  | .success => .success
  | .failure => .failure
  | .invalid => .invalid
  | .defer => .defer

/-- What `config_command` reads of the configuration, and the handlers that change it. -/
structure ConfigHandlers (σ : Type) where
  /-- `config->symbols` -/
  symbols : σ → List SwayVariable
  /-- `config->reading` -/
  reading : σ → Bool
  /-- `config->active` -/
  active : σ → Bool
  /-- `handler->handle`, of the handler with a name -/
  handle : String → σ → List Line → σ × HandlerStatus
  /-- `list_add` to the queue of deferred commands -/
  defer : σ → Line → σ
  /-- `config->current_bar = NULL` -/
  clearBar : σ → σ
  /-- `memset` of the handler context -/
  clearContext : σ → σ

section Commands

variable {σ : Type} (h : ConfigHandlers σ)

/-- A command that is stored in a variable is taken from it. -/
def replaceCommand (symbols : List SwayVariable) : List Line → List Line
  | [] => []
  | command :: args =>
      if command.head? = some '$' then
        splitArgs (joinChars (doVarReplacement symbols command :: args))
      else command :: args

/-- The variable that `set` is given a value for is not replaced by a shorter one. -/
def escapeName (handler : String) : List Line → List Line
  | command :: name :: args =>
      if handler = "set" ∧ name.head? = some '$' then command :: ('$' :: name) :: args
      else command :: name :: args
  | argv => argv

/-- The handlers whose arguments keep their quotes. -/
def keepsQuotes : List String :=
  ["exec", "exec_always", "mode", "bindsym", "bindcode", "bindswitch", "bindgesture", "set",
    "for_window"]

/-- An argument without its quotes and with its escapes replaced. -/
def bareArg (handler : String) (arg : Line) : Line :=
  let arg :=
    if handler ∉ keepsQuotes ∧ (arg.head? = some doubleQuote ∨ arg.head? = some apostrophe) then
      stripQuotesFrom false false false arg
    else arg
  (unescapeString arg).elim arg fun unescaped => cString unescaped.1

/-- The arguments as the handler gets them. -/
def bareArgs (handler : String) (argv : List Line) : List Line :=
  argv.mapIdx fun i arg =>
    if (if handler = "set" then 2 else 1) ≤ i then bareArg handler arg else arg

/-- `config_command`, where no block begins or ends. -/
def runHandler (s : σ) (argv : List Line) : σ × CmdStatus :=
  match replaceCommand (h.symbols s) argv with
  | [] => (s, .success)
  | command :: args =>
      match findCoreHandler (h.reading s) (h.active s) command with
      | none => (s, .invalid)
      | some handler =>
          let argv := splitArgs (doVarReplacement (h.symbols s)
            (joinChars (escapeName handler (command :: args))))
          let res := h.handle handler s (bareArgs handler argv).tail
          (res.1, res.2.toCmd)

/-- `config_command` -/
def configCommand (s : σ) (exec : Line) : σ × CmdStatus :=
  let argv := splitArgs exec
  match argv.getLast? with
  | none => (s, .success)
  | some last =>
      if 1 < argv.length ∧ last = [openBrace] then (s, .block (joinChars argv.dropLast))
      else if last = [closeBrace] then (s, .blockEnd)
      else runHandler h s argv

/-- `config_commands_command`. It gives `find_handler` no handlers. -/
def configCommandsCommand (exec : Line) : CmdStatus :=
  match splitArgs exec with
  | [] => .success
  | cmd :: _ =>
      if cmd = [closeBrace] then .blockEnd
      else if findHandler cmd [] = none ∧ cmd ≠ ['*'] then .invalid
      else .success

/-- What `read_config` calls. -/
def ConfigHandlers.commands : ConfigCommands σ where
  command := configCommand h
  commandsCommand s exec := (s, configCommandsCommand exec)
  defer := h.defer
  clearBar := h.clearBar
  clearContext := h.clearContext

end Commands

/-! ## Openings and ends -/

/-- The commands of a file, each with whether a line that holds only a brace follows. -/
def fileCommands (text : List Char) : List (Line × Bool) :=
  (scan (lines newline text).length (lines newline text)).1

/-- A line that ends in an opening brace of its own, or that a line with only such a brace follows,
is an opening, and a line that ends in a closing brace of its own is an end. -/
def blockMark (c : Line × Bool) : Option DyckStep :=
  if c.2 = true ∨ (splitArgs c.1).getLast? = some [openBrace] then some U
  else if (splitArgs c.1).getLast? = some [closeBrace] then some D
  else none

/-- The openings and ends of a file. -/
def blockMarks (text : List Char) : List DyckStep := (fileCommands text).filterMap blockMark

/-- The openings and ends match up. -/
def BlocksMatch (text : List Char) : Prop := ∃ w : DyckWord, w.toList = blockMarks text

/-- Every end has its opening, but there are openings without an end. -/
def LeavesBlocksOpen (text : List Char) : Prop :=
  (∀ i, ((blockMarks text).take i).count D ≤ ((blockMarks text).take i).count U) ∧
    (blockMarks text).count D < (blockMarks text).count U

/-! ## What is refused -/

section Refused

variable {σ : Type} (h : ConfigCommands σ)

/-- What a command line comes to. -/
def ConfigRun.status (r : ConfigRun σ) (c : Line × Bool) : CmdStatus :=
  let expanded := expandLine r.stack.head? c.1 c.2
  (if r.stack.head? = some commandsBlock then h.commandsCommand r.config expanded
    else h.command r.config expanded).2

/-- A command line fails, or it ends a block where none is open. -/
def ConfigRun.refuses (r : ConfigRun σ) (c : Line × Bool) : Bool :=
  match r.status h c with
  | .failure => true
  | .invalid => true
  | .blockEnd => r.stack.isEmpty
  | _ => false

/-- Some command line of a file is refused where it stands. -/
def RefusesSome (config : σ) (text : List Char) : Prop :=
  ∃ before c after, fileCommands text = before ++ c :: after ∧
    (runCommands h { config, stack := [], success := true, calls := [] } before).refuses h c = true

theorem ConfigRun.success_line (r : ConfigRun σ) (c : Line × Bool) :
    (r.line h c.1 c.2).success = (r.success && !r.refuses h c) := by
  unfold ConfigRun.line ConfigRun.refuses ConfigRun.status ConfigRun.handle
  dsimp only
  cases (if r.stack.head? = some commandsBlock then
    h.commandsCommand r.config (expandLine r.stack.head? c.1 c.2)
    else h.command r.config (expandLine r.stack.head? c.1 c.2)).2 with
  | success => exact (Bool.and_true _).symm
  | failure => exact (Bool.and_false _).symm
  | invalid => exact (Bool.and_false _).symm
  | defer => exact (Bool.and_true _).symm
  | block name => exact (Bool.and_true _).symm
  | blockCommands => exact (Bool.and_true _).symm
  | blockEnd =>
      cases hstack : r.stack with
      | nil => exact (Bool.and_false _).symm
      | cons block stack => exact (Bool.and_true _).symm

theorem runCommands_concat (r : ConfigRun σ) (commands : List (Line × Bool)) (c : Line × Bool) :
    runCommands h r (commands ++ [c]) = (runCommands h r commands).line h c.1 c.2 :=
  List.foldl_concat _ _ _ _

/-- **Errors are not forgotten**: a run succeeds when none of its command lines is refused. -/
theorem success_runCommands (r : ConfigRun σ) (commands : List (Line × Bool)) :
    (runCommands h r commands).success = true ↔ r.success = true ∧
      ∀ before c after, commands = before ++ c :: after →
        (runCommands h r before).refuses h c = false := by
  induction commands using List.reverseRecOn with
  | nil =>
      constructor
      · intro hsuccess
        exact ⟨hsuccess, fun before c after hnil =>
          absurd hnil.symm (List.append_ne_nil_of_right_ne_nil _ (List.cons_ne_nil _ _))⟩
      · exact fun hsuccess => hsuccess.1
  | append_singleton commands c ih =>
      rw [runCommands_concat, ConfigRun.success_line, Bool.and_eq_true, Bool.not_eq_true', ih]
      constructor
      · rintro ⟨⟨hstart, hbefore⟩, hlast⟩
        refine ⟨hstart, fun before d after hsplit => ?_⟩
        rcases List.eq_nil_or_concat after with rfl | ⟨after, e, rfl⟩
        · obtain ⟨rfl, hd⟩ := List.append_inj' hsplit rfl
          obtain ⟨rfl, -⟩ := List.cons.inj hd
          exact hlast
        · rw [List.concat_eq_append, ← List.cons_append, ← List.append_assoc] at hsplit
          exact hbefore before d after (List.append_inj' hsplit rfl).1
      · rintro ⟨hstart, hall⟩
        refine ⟨⟨hstart, fun before d after hsplit => ?_⟩, hall commands c [] rfl⟩
        refine hall before d (after ++ [c]) ?_
        rw [hsplit, List.append_assoc, List.cons_append]

/-- What `read_config` returns. -/
theorem success_readConfig (config : σ) (text : List Char) (main : Bool) :
    (readConfig h config text main).1.success = true ↔ ¬ RefusesSome h config text := by
  rw [readConfig_eq, success_runCommands]
  unfold RefusesSome fileCommands
  constructor
  · rintro ⟨-, hall⟩ ⟨before, c, after, hsplit, hrefused⟩
    rw [hall before c after hsplit] at hrefused
    cases hrefused
  · intro hno
    refine ⟨rfl, fun before c after hsplit => ?_⟩
    by_contra hrefused
    exact hno ⟨before, c, after, hsplit, Bool.not_eq_false _ ▸ hrefused⟩

end Refused

/-! ## Where the arguments of a block's name end -/

section Names

/-- An argument that another one follows leaves nothing open. -/
theorem Splits.closed {before text : List Char} {tokens : List (List Char)}
    (h : Splits before text tokens) (hbefore : Nesting.readAll before = {}) :
    ∀ token ∈ tokens.dropLast, Nesting.readAll token = {} := by
  induction h with
  | done hgap => exact fun token htoken => by cases htoken
  | @token before gap token rest tokens hgap hne huncut hcut hrest ih =>
      have hgapOpen := Nesting.readAll_space hbefore hgap
      have hread : Nesting.readAll (before ++ gap ++ token) = Nesting.readAll token := by
        have happend : Nesting.readAll (before ++ gap ++ token) =
            token.foldl Nesting.read (Nesting.readAll (before ++ gap)) := List.foldl_append
        rw [happend, hgapOpen]
        rfl
      cases tokens with
      | nil => exact fun token htoken => by cases htoken
      | cons next tokens =>
          -- the text goes on, so whitespace ended the argument
          have hclosed : Nesting.readAll (before ++ gap ++ token) = {} := by
            cases rest with
            | nil =>
                generalize hnil : ([] : List Char) = empty at hrest
                cases hrest with
                | token _ hnextNe _ _ _ =>
                    simp only [List.nil_eq, List.append_eq_nil_iff] at hnil
                    exact absurd hnil.1.2 hnextNe
            | cons c rest => exact (hcut c rest rfl).2
          intro t ht
          rw [List.dropLast_cons_cons] at ht
          obtain rfl | ht := List.mem_cons.mp ht
          · rw [← hread, hclosed]
          · exact ih hclosed t ht

theorem readAll_joinChars {args : List (List Char)}
    (h : ∀ arg ∈ args, Nesting.readAll arg = {}) : Nesting.readAll (joinChars args) = {} := by
  induction args with
  | nil => rfl
  | cons arg args ih =>
      obtain ⟨harg, hargs⟩ := List.forall_mem_cons.mp h
      cases args with
      | nil =>
          unfold joinChars
          rwa [List.intercalate_singleton]
      | cons next args =>
          have hjoin : joinChars (arg :: next :: args) = arg ++ [' '] ++ joinChars (next :: args) := by
            unfold joinChars
            rw [List.intercalate_cons_cons]
          have hspace : Nesting.readAll (arg ++ [' ']) = {} :=
            Nesting.readAll_space harg (List.forall_mem_singleton.mpr (by decide))
          have happend : Nesting.readAll (arg ++ [' '] ++ joinChars (next :: args)) =
              (joinChars (next :: args)).foldl Nesting.read (Nesting.readAll (arg ++ [' '])) :=
            List.foldl_append
          rw [hjoin, happend, hspace]
          exact ih hargs

/-- The name of a block leaves nothing open. -/
theorem readAll_blockName (exec : Line) :
    Nesting.readAll (joinChars (splitArgs exec).dropLast) = {} := by
  refine readAll_joinChars ?_
  have hsplits := (splitArgsRun_splits exec).2
  rw [splitArgsRun_eq] at hsplits
  exact hsplits.closed rfl

/-- The arguments of a line are behind those of the name of its block. -/
theorem splitArgs_block {block : Line} (hblock : Nesting.readAll block = {}) (text : Line) :
    splitArgs (block ++ [' '] ++ text) = splitArgs (block ++ [' ']) ++ splitArgs text := by
  have hbefore : BeforeArg (block ++ [' ']) :=
    .inr ⟨block, [' '], rfl, List.cons_ne_nil _ _, List.forall_mem_singleton.mpr (by decide), hblock⟩
  have hread : splitArgs (block ++ [' '] ++ text) =
      (text.foldl SplitArgs.read (SplitArgs.readAll (block ++ [' ']))).finish := by
    have happend : SplitArgs.readAll (block ++ [' '] ++ text) =
        text.foldl SplitArgs.read (SplitArgs.readAll (block ++ [' '])) := List.foldl_append
    rw [← happend]
    rfl
  rw [hread, SplitArgs.readAll_before hbefore, SplitArgs.finish_idle]

/-- A text without arguments is blank. -/
theorem Splits.blank {before text : List Char} (h : Splits before text []) :
    ∀ c ∈ text, isSpace c = true := by
  generalize hnil : ([] : List (List Char)) = tokens at h
  cases h with
  | done hgap => exact hgap
  | token => cases hnil

/-- A command line has some argument. -/
theorem splitArgs_command {text : List Char} {c : Line × Bool} (hc : c ∈ fileCommands text) :
    splitArgs c.1 ≠ [] := by
  have htext : c.1 ∈ commandTexts (scan (lines newline text).length (lines newline text)).2 := by
    rw [← scan_texts]
    exact List.mem_map_of_mem hc
  obtain ⟨hline, hskip⟩ := List.mem_filter.mp htext
  obtain ⟨line, -, hline⟩ := List.mem_map.mp hline
  have hne : c.1 ≠ [] := by
    intro hnil
    rw [hnil] at hskip
    exact absurd hskip (by decide)
  have hsplits := (splitArgsRun_splits c.1).2
  rw [splitArgsRun_eq] at hsplits
  intro hnone
  rw [hnone] at hsplits
  have hblank := hsplits.blank
  -- the last character of a line is not a blank
  rw [← hline, lineText_eq] at hblank hne
  exact List.rdropWhile_last_not isSpace (line.dropWhile isSpace) hne
    (hblank _ (List.getLast_mem hne))

end Names

/-! ## The stack -/

section Stack

variable {σ : Type} {h : ConfigHandlers σ} {s : σ} {exec : Line}

/-- The statuses of a block that begins. -/
def CmdStatus.opens : CmdStatus → Bool
  | .block _ => true
  | .blockCommands => true
  | _ => false

/-- No handler begins a block. -/
theorem opens_runHandler (argv : List Line) : (runHandler h s argv).2.opens = false := by
  have htoCmd : ∀ status : HandlerStatus, status.toCmd.opens = false := by
    intro status
    cases status <;> rfl
  unfold runHandler
  split
  · rfl
  · split
    · rfl
    · exact htoCmd _

/-- A block begins behind a brace, and its name is what is before it. -/
theorem configCommand_opens (hopens : (configCommand h s exec).2.opens = true) :
    (splitArgs exec).getLast? = some [openBrace] ∧
      (configCommand h s exec).2 = .block (joinChars (splitArgs exec).dropLast) := by
  unfold configCommand at hopens ⊢
  dsimp only at hopens ⊢
  split at hopens
  · cases hopens
  next last hlast =>
    rw [hlast]
    split_ifs at hopens ⊢ with hbrace hends
    · exact ⟨congrArg some hbrace.2, rfl⟩
    · cases hopens
    · rw [opens_runHandler] at hopens
      cases hopens

theorem configCommand_end (hend : (splitArgs exec).getLast? = some [closeBrace]) :
    (configCommand h s exec).2 = .blockEnd := by
  unfold configCommand
  dsimp only
  rw [hend]
  dsimp only
  rw [if_neg fun hopens => absurd hopens.2 (by decide), if_pos rfl]

/-- The arguments of a line with its block. -/
theorem splitArgs_expandLine {block : Option Line}
    (hblock : ∀ name ∈ block, Nesting.readAll name = {}) (line : Line) (brace : Bool) :
    splitArgs (expandLine block line brace) =
      (block.elim [] fun name => splitArgs (name ++ [' '])) ++
        splitArgs (line ++ if brace then [' ', openBrace] else []) := by
  unfold expandLine
  cases block with
  | none => rfl
  | some name =>
      rw [List.append_assoc]
      exact splitArgs_block (hblock name rfl) _

/-- The blocks that are open are no more than the openings that have no end yet, and their names
leave nothing open. -/
structure ConfigRun.Fits (r : ConfigRun σ) (marks : List DyckStep) : Prop where
  names : ∀ name ∈ r.stack, Nesting.readAll name = {}
  depth : r.stack.length + marks.count D ≤ marks.count U

theorem ConfigRun.stack_line (h : ConfigCommands σ) (r : ConfigRun σ) (c : Line × Bool) :
    (r.line h c.1 c.2).stack =
      match r.status h c with
      | .block name => name :: r.stack
      | .blockCommands => commandsBlock :: r.stack
      | .blockEnd => r.stack.tail
      | _ => r.stack := by
  unfold ConfigRun.line ConfigRun.status ConfigRun.handle
  dsimp only
  cases (if r.stack.head? = some commandsBlock then
    h.commandsCommand r.config (expandLine r.stack.head? c.1 c.2)
    else h.command r.config (expandLine r.stack.head? c.1 c.2)).2 with
  | success => rfl
  | failure => rfl
  | invalid => rfl
  | defer => rfl
  | block name => rfl
  | blockCommands => rfl
  | blockEnd =>
      dsimp only
      cases r.stack <;> rfl

/-- In a block of that name every line is refused, whatever it is. -/
theorem ConfigRun.refuses_commandsBlock {r : ConfigRun σ} (c : Line × Bool)
    (hhead : r.stack.head? = some commandsBlock) : r.refuses h.commands c = true := by
  have hsplit : splitArgs (expandLine (some commandsBlock) c.1 c.2) =
      commandsBlock :: splitArgs (c.1 ++ if c.2 then [' ', openBrace] else []) := by
    rw [splitArgs_expandLine]
    · rfl
    · intro name hname
      obtain rfl := Option.some.inj hname
      decide
  have hstatus : r.status h.commands c = .invalid := by
    unfold ConfigRun.status
    dsimp only
    rw [hhead, if_pos rfl]
    have hcommand : configCommandsCommand (expandLine (some commandsBlock) c.1 c.2) = .invalid := by
      unfold configCommandsCommand
      rw [hsplit]
      dsimp only
      rw [if_neg (by decide), if_pos (by decide)]
    exact hcommand
  unfold ConfigRun.refuses
  rw [hstatus]

/-- The mark of a line whose last argument is known. -/
theorem blockMark_opens {c : Line × Bool} (hc : splitArgs c.1 ≠ []) {argv : List Line}
    (hlast : (argv ++ splitArgs (c.1 ++ if c.2 then [' ', openBrace] else [])).getLast? =
      some [openBrace]) : blockMark c = some U := by
  obtain ⟨line, brace⟩ := c
  cases brace with
  | true => exact if_pos (.inl rfl)
  | false =>
      dsimp only at hc hlast
      rw [if_neg Bool.false_ne_true, List.append_nil, List.getLast?_append_of_ne_nil _ hc] at hlast
      exact if_pos (.inr hlast)

/-- The last argument of a line that is marked as an end. -/
theorem blockMark_end {c : Line × Bool} (hmark : blockMark c = some D) (argv : List Line) :
    (argv ++ splitArgs (c.1 ++ if c.2 then [' ', openBrace] else [])).getLast? =
      some [closeBrace] := by
  unfold blockMark at hmark
  split_ifs at hmark with hopens hends
  · cases hmark
  rw [not_or, Bool.not_eq_true] at hopens
  have hne : splitArgs c.1 ≠ [] := by
    intro hnil
    rw [hnil] at hends
    cases hends
  rw [hopens.1, if_neg Bool.false_ne_true, List.append_nil, List.getLast?_append_of_ne_nil _ hne,
    hends]

theorem ConfigRun.stack_line_suffix {h : ConfigCommands σ} {r : ConfigRun σ} {c : Line × Bool}
    (hstatus : (r.status h c).opens = false) : (r.line h c.1 c.2).stack <:+ r.stack := by
  rw [ConfigRun.stack_line]
  cases hcase : r.status h c with
  | success => exact List.suffix_rfl
  | failure => exact List.suffix_rfl
  | invalid => exact List.suffix_rfl
  | defer => exact List.suffix_rfl
  | block name =>
      rw [hcase] at hstatus
      cases hstatus
  | blockCommands =>
      rw [hcase] at hstatus
      cases hstatus
  | blockEnd => exact List.tail_suffix _

/-- **What a line does** to the blocks that are open, unless it is refused: they are never more than
the openings allow. -/
theorem ConfigRun.Fits.line {r : ConfigRun σ} {marks : List DyckStep} (hfits : r.Fits marks)
    {c : Line × Bool} (hc : splitArgs c.1 ≠ []) (hok : r.refuses h.commands c = false) :
    (r.line h.commands c.1 c.2).Fits (marks ++ (blockMark c).toList) := by
  have hhead : r.stack.head? ≠ some commandsBlock := by
    intro hhead
    rw [ConfigRun.refuses_commandsBlock c hhead] at hok
    cases hok
  have hstatus : r.status h.commands c =
      (configCommand h r.config (expandLine r.stack.head? c.1 c.2)).2 :=
    congrArg Prod.snd (if_neg hhead)
  have hargs := splitArgs_expandLine
    (fun name hname => hfits.names name (List.mem_of_mem_head? hname)) c.1 c.2
  have hdepth := hfits.depth
  by_cases hopens : (r.status h.commands c).opens = true
  · -- a block begins
    rw [hstatus] at hopens
    obtain ⟨hlast, hname⟩ := configCommand_opens hopens
    rw [hargs] at hlast
    have hstack := ConfigRun.stack_line h.commands r c
    rw [hstatus, hname] at hstack
    rw [blockMark_opens hc hlast]
    constructor
    · intro name hmem
      rw [hstack] at hmem
      obtain rfl | hmem := List.mem_cons.mp hmem
      · exact readAll_blockName _
      · exact hfits.names name hmem
    · rw [hstack, List.length_cons, List.count_append, List.count_append]
      have hD : (some U).toList.count D = 0 := rfl
      have hU : (some U).toList.count U = 1 := rfl
      omega
  · rw [Bool.not_eq_true] at hopens
    have hsuffix := ConfigRun.stack_line_suffix hopens
    refine ⟨fun name hmem => hfits.names name (hsuffix.subset hmem), ?_⟩
    have hlength := hsuffix.length_le
    rw [List.count_append, List.count_append]
    by_cases hmark : blockMark c = some D
    · -- a block ends, and some block is open
      have hend : r.status h.commands c = .blockEnd := by
        rw [hstatus]
        refine configCommand_end ?_
        rw [hargs]
        exact blockMark_end hmark _
      have hopen : r.stack ≠ [] := by
        unfold ConfigRun.refuses at hok
        rw [hend] at hok
        intro hnil
        rw [hnil] at hok
        cases hok
      have hpos := List.length_pos_iff.mpr hopen
      have hD : (some D).toList.count D = 1 := rfl
      rw [ConfigRun.stack_line, hend, hmark, List.length_tail]
      omega
    · have hD : (blockMark c).toList.count D = 0 := by
        rw [List.count_eq_zero]
        intro hmem
        exact hmark (Option.mem_toList.mp hmem)
      omega

/-- The blocks that are open behind some lines of a file, when none of them is refused. -/
theorem ConfigRun.Fits.run {r : ConfigRun σ} (hfits : r.Fits []) {commands : List (Line × Bool)}
    (hcommands : ∀ c ∈ commands, splitArgs c.1 ≠ [])
    (hok : ∀ before c after, commands = before ++ c :: after →
      (runCommands h.commands r before).refuses h.commands c = false) :
    (runCommands h.commands r commands).Fits (commands.filterMap blockMark) := by
  induction commands using List.reverseRecOn with
  | nil => exact hfits
  | append_singleton commands c ih =>
      have hbefore := ih (fun d hd => hcommands d (List.mem_append_left _ hd))
        fun before d after hsplit => hok before d (after ++ [c]) (by
          rw [hsplit, List.append_assoc, List.cons_append])
      have hmarks : (commands ++ [c]).filterMap blockMark =
          commands.filterMap blockMark ++ (blockMark c).toList := by
        rw [List.filterMap_append]
        cases hmark : blockMark c with
        | none => rw [List.filterMap_cons_none hmark]; rfl
        | some mark => rw [List.filterMap_cons_some hmark]; rfl
      rw [runCommands_concat, hmarks]
      exact hbefore.line (hcommands c (List.mem_append_right _ List.mem_cons_self))
        (hok commands c [] rfl)

end Stack

/-! ## The end of the file -/

section EndOfFile

variable {σ : Type}

/-- **An end without an opening** is refused, if no line before it is. -/
theorem openings_before_ends (h : ConfigHandlers σ) (config : σ) (text : List Char)
    (hno : ¬ RefusesSome h.commands config text) (i : Nat) :
    ((blockMarks text).take i).count D ≤ ((blockMarks text).take i).count U := by
  have hsplit : blockMarks text = (blockMarks text).take i ++ (blockMarks text).drop i :=
    (List.take_append_drop i _).symm
  obtain ⟨before, after, hcommands, hbefore, -⟩ := List.filterMap_eq_append_iff.mp hsplit
  have hfits : (runCommands h.commands { config, stack := [], success := true, calls := [] }
      before).Fits (before.filterMap blockMark) := by
    apply ConfigRun.Fits.run
    · exact ⟨fun name hmem => absurd hmem List.not_mem_nil, le_rfl⟩
    · intro c hc
      exact splitArgs_command (hcommands ▸ List.mem_append_left after hc)
    · intro first c last hfirst
      by_contra hrefused
      refine hno ⟨first, c, last ++ after, ?_, Bool.not_eq_false _ ▸ hrefused⟩
      rw [hcommands, hfirst, List.append_assoc, List.cons_append]
  rw [← hbefore]
  exact le_trans (Nat.le_add_left _ _) hfits.depth

/-- **Unbalanced blocks are reported** unless the file ends within a block: then they are reported
just when some other line is refused. -/
theorem readConfig_unbalanced_iff (h : ConfigHandlers σ) (config : σ) (text : List Char)
    (main : Bool) :
    (¬ BlocksMatch text → (readConfig h.commands config text main).1.success = false) ↔
      (LeavesBlocksOpen text → RefusesSome h.commands config text) := by
  constructor
  · intro hreports hopen
    have hno : ¬ BlocksMatch text := by
      rintro ⟨w, hw⟩
      have hcount := w.count_U_eq_count_D
      have hless := hopen.2
      rw [hw] at hcount
      omega
    by_contra hnone
    have hsuccess := (success_readConfig h.commands config text main).mpr hnone
    rw [hreports hno] at hsuccess
    cases hsuccess
  · intro hopen hno
    by_contra hsuccess
    rw [Bool.not_eq_false, success_readConfig] at hsuccess
    have hbefore := openings_before_ends h config text hsuccess
    have hall := hbefore (blockMarks text).length
    rw [List.take_length] at hall
    -- nothing but openings can be left over
    refine hsuccess (hopen ⟨hbefore, lt_of_le_of_ne hall fun hsame => ?_⟩)
    exact hno ⟨⟨blockMarks text, hsame.symm, hbefore⟩, rfl⟩

/-- Handlers that accept everything. -/
def acceptingHandlers : ConfigHandlers Unit where
  symbols _ := []
  reading _ := true
  active _ := false
  handle _ s _ := (s, .success)
  defer s _ := s
  clearBar s := s
  clearContext s := s

/-- The file `bar {` leaves its block open. -/
theorem readConfig_openBar :
    blockMarks "bar \x7b".toList = [U] ∧ ¬ BlocksMatch "bar \x7b".toList ∧
      (readConfig acceptingHandlers.commands () "bar \x7b".toList true).1.success = true := by
  have hmarks : blockMarks "bar \x7b".toList = [U] := by decide +kernel
  refine ⟨hmarks, ?_, by decide +kernel⟩
  rintro ⟨w, hw⟩
  have hcount := w.count_U_eq_count_D
  rw [hw, hmarks] at hcount
  cases hcount

end EndOfFile

end Swirl
