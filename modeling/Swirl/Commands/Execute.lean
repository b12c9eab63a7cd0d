import Swirl.Commands.CriteriaRoundTrip
import Swirl.Common.Quoting
import Swirl.Config.Blocks
import Swirl.Tree.Types

set_option autoImplicit false

/-! # Running a text of commands

`execute_command` goes over a text once: it reads criteria, cuts off a command and runs it before
it looks at what follows. A text is made of command lists, which are written with a semicolon
between them; a list is criteria, or none, and commands with a comma between them. Going over the
text is running the lists, one after the other, up to the first result that is `CMD_INVALID`: the
criteria of a list are read when the list begins, hold for all of its commands and for no other.
-/

namespace Swirl

/-! ## `execute_command` -/

/-- `config->handler_context`: what the handlers are to work on. -/
structure HandlerContext where
  seat : Nat
  node : Option Node
  container : Option ConId
  workspace : Option WsId
  nodeOverridden : Bool

/-- `struct cmd_results` -/
structure CmdResults where
  status : HandlerStatus
  error : Option String
  deriving DecidableEq

/-- The handler context, and the rest of the compositor. -/
structure CommandState (σ : Type) where
  context : HandlerContext
  rest : σ

/-- What `execute_command` reads and calls. -/
structure CommandCalls (σ ρ : Type) where
  pcre : Pcre ρ
  /-- the id that `con_id="__focused__"` stands for -/
  focusId : σ → Nat
  /-- `config->reading` -/
  reading : σ → Bool
  /-- `config->active` -/
  active : σ → Bool
  /-- `config->symbols` -/
  symbols : σ → List SwayVariable
  /-- `input_manager_get_default_seat` -/
  defaultSeat : σ → Option Nat
  /-- `seat_get_focus_inactive` for the root -/
  focusInactive : σ → Nat → Option Node
  /-- `con->pending.workspace` -/
  pendingWorkspace : σ → ConId → Option WsId
  /-- `criteria_get_containers` -/
  criteriaGetContainers : σ → Criteria ρ → List ConId
  /-- `handler->handle`, for the handler of that name -/
  handle : String → List (List Char) → CommandState σ → CmdResults × CommandState σ

section Model

variable {σ ρ : Type} (calls : CommandCalls σ ρ)

/-- `set_config_node` -/
def CommandCalls.setConfigNode (s : CommandState σ) (node : Option Node) (nodeOverridden : Bool) :
    CommandState σ :=
  let context := { s.context with node, nodeOverridden, container := none, workspace := none }
  match node with
  | some (.container c) =>
      { s with context := { context with
          container := some c, workspace := calls.pendingWorkspace s.rest c } }
  | some (.workspace w) => { s with context := { context with workspace := some w } }
  | some .root | some (.output _) | none => { s with context := context }

/-- The arguments without their quotes, unless the command reads them itself. -/
def stripArgv : List (List Char) → List (List Char)
  | [] => []
  | command :: args =>
      if command = "exec".toList ∨ command = "exec_always".toList ∨ command = "mode".toList then
        command :: args
      else command :: args.map fun arg =>
        if arg.head? = some doubleQuote ∨ arg.head? = some apostrophe then
          stripQuotesFrom false false false arg
        else arg

/-- Variables are replaced in all but the command, and the name that `set` gives a value. -/
def replaceArgv (symbols : List SwayVariable) (handler : String) (argv : List (List Char)) :
    List (List Char) :=
  let first := if handler = "set" then 2 else 1
  argv.take first ++ (argv.drop first).map (doVarReplacement symbols)

/-- A handler is called for every container, up to one for which it returns `CMD_INVALID`: the
last result that is no success. -/
def CommandCalls.handleEach (handler : String) (args : List (List Char)) :
    List ConId → Option CmdResults → CommandState σ → Option CmdResults × CommandState σ
  | [], failRes, s => (failRes, s)
  | container :: containers, failRes, s =>
      let (res, s) := calls.handle handler args
        (calls.setConfigNode s (some (.container container)) true)
      if res.status = .success then handleEach handler args containers failRes s
      else if res.status = .invalid then (some res, s)
      else handleEach handler args containers (some res) s

/-- One command: its result. With criteria, `containers` are those they match. -/
def CommandCalls.handleCommand (con : Option ConId) (containers : Option (List ConId))
    (cmd : List Char) (s : CommandState σ) : CmdResults × CommandState σ :=
  let argv := stripArgv (splitArgs cmd)
  match findCoreHandler (calls.reading s.rest) (calls.active s.rest) (argv.headD []) with
  | none =>
      (⟨.invalid, some ("Unknown/invalid command '" ++ String.ofList (argv.headD []) ++ "'")⟩, s)
  | some handler =>
      let args := (replaceArgv (calls.symbols s.rest) handler argv).tail
      match containers with
      | none =>
          let node := match con with
            | some c => some (.container c)
            | none => calls.focusInactive s.rest s.context.seat
          calls.handle handler args (calls.setConfigNode s node con.isSome)
      | some [] => (⟨.failure, some "No matching node."⟩, s)
      | some containers =>
          let (failRes, s) := calls.handleEach handler args containers none s
          (failRes.getD ⟨.success, none⟩, s)

/-- What is cut off is run, unless it is empty. -/
def CommandCalls.handlePiece (con : Option ConId) (containers : Option (List ConId))
    (piece : List Char) (s : CommandState σ) : List CmdResults × CommandState σ :=
  let cmd := piece.dropWhile isSpace
  if cmd = [] then ([], s)
  else
    let (res, s) := calls.handleCommand con containers cmd s
    ([res], s)

/-- Where a turn begins: spaces are skipped, and behind a semicolon criteria are read. -/
def CommandCalls.beginTurn (s : CommandState σ) (head : List Char) (matchedDelim : Char)
    (containers : Option (List ConId)) : Except String (List Char × Option (List ConId)) :=
  let head := head.dropWhile isSpace
  if matchedDelim = ';' then
    if head.head? = some '[' then do
      let (criteria, raw) ← criteriaParseRaw calls.pcre (calls.focusId s.rest) head
      pure ((head.drop raw.length).dropWhile isSpace,
        some (calls.criteriaGetContainers s.rest criteria))
    else .ok (head, none)
  else .ok (head, containers)

/-- No command is run after these results. -/
def stopped (results : List CmdResults) : Bool := results.any fun res => res.status = .invalid

theorem beginTurn_length {s : CommandState σ} {head text : List Char} {matchedDelim : Char}
    {containers containers' : Option (List ConId)}
    (h : calls.beginTurn s head matchedDelim containers = .ok (text, containers')) :
    text.length ≤ head.length := by
  have hspaces : ∀ l : List Char, (l.dropWhile isSpace).length ≤ l.length :=
    fun l => (List.dropWhile_suffix isSpace).length_le
  unfold CommandCalls.beginTurn at h
  dsimp only at h
  split_ifs at h
  · cases hparse : criteriaParseRaw calls.pcre (calls.focusId s.rest) (head.dropWhile isSpace) with
    | error e => rw [hparse] at h; cases h
    | ok parsed =>
        rw [hparse] at h
        obtain ⟨rfl, -⟩ := Prod.mk.inj (Except.ok.inj h)
        calc _ ≤ ((head.dropWhile isSpace).drop parsed.2.length).length := hspaces _
          _ ≤ (head.dropWhile isSpace).length := by rw [List.length_drop]; omega
          _ ≤ head.length := hspaces head
  · obtain ⟨rfl, -⟩ := Prod.mk.inj (Except.ok.inj h)
    exact hspaces head
  · obtain ⟨rfl, -⟩ := Prod.mk.inj (Except.ok.inj h)
    exact hspaces head

/-- The loop of `execute_command`. -/
def CommandCalls.executeLoop (con : Option ConId) (s : CommandState σ) (head : List Char)
    (matchedDelim : Char) (containers : Option (List ConId)) : List CmdResults × CommandState σ :=
  match _hturn : calls.beginTurn s head matchedDelim containers with
  | .error e => ([⟨.invalid, some e⟩], s)
  | .ok (text, containers) =>
      match _hcut : argsep commandDelims text with
      | (piece, none) => calls.handlePiece con containers piece s
      | (piece, some (rest, matchedDelim)) =>
          let (results, s) := calls.handlePiece con containers piece s
          if stopped results then (results, s)
          else
            let (later, s) := executeLoop con s rest matchedDelim containers
            (results ++ later, s)
termination_by head.length
decreasing_by exact (argsepLoop_lt _hcut).trans_le (beginTurn_length calls _hturn)

/-- `execute_command`: `none` where there is no seat. -/
def CommandCalls.executeCommand (exec : List Char) (seat : Option Nat) (con : Option ConId)
    (s : CommandState σ) : Option (List CmdResults × CommandState σ) :=
  (seat.or (calls.defaultSeat s.rest)).map fun seat =>
    calls.executeLoop con { s with context := { s.context with seat } } exec ';' none

end Model

/-! ## Command lists -/

/-- `argsep` does not cut within the text, and has nothing open behind it. -/
def uncut (delim : List Char) : Quotes → List Char → Bool
  | q, [] => decide (q = {})
  | q, c :: rest => !decide (q = {} ∧ c ∈ delim) && uncut delim (q.argsepRead delim c) rest

/-- A command that is not empty. -/
structure CommandText where
  text : List Char
  whole : uncut commandDelims {} text = true
  visible : text.dropWhile isSpace ≠ []

/-- Commands behind criteria, where there are any attributes. -/
structure CommandList where
  attributes : List Attribute
  closes : QuotesClose attributes
  first : CommandText
  others : List CommandText
  plain : attributes = [] → (first.text.dropWhile isSpace).head? ≠ some '['

/-- The commands behind the first one, with their commas. -/
def othersText (others : List CommandText) : List Char := others.flatMap fun c => ',' :: c.text

def CommandList.text (l : CommandList) : List Char :=
  (if l.attributes = [] then [] else criteriaText l.attributes) ++
    (l.first.text ++ othersText l.others)

/-- Command lists with semicolons between them. -/
def listsText : CommandList → List CommandList → List Char
  | l, [] => l.text
  | l, next :: lists => l.text ++ ';' :: listsText next lists

/-! ## Running them -/

/-- What gives results and changes the state. -/
abbrev CommandRun (σ : Type) := CommandState σ → List CmdResults × CommandState σ

section Runs

variable {σ ρ : Type}

def skip : CommandRun σ := fun s => ([], s)

/-- One run and then the other, unless the first one has stopped. -/
def andThen (a b : CommandRun σ) : CommandRun σ := fun s =>
  if stopped (a s).1 then a s else ((a s).1 ++ (b (a s).2).1, (b (a s).2).2)

def runInOrder (runs : List (CommandRun σ)) : CommandRun σ := runs.foldr andThen skip

variable (calls : CommandCalls σ ρ) (con : Option ConId)

def CommandCalls.runCommand (containers : Option (List ConId)) (c : CommandText) : CommandRun σ :=
  fun s =>
    let (res, s) := calls.handleCommand con containers (c.text.dropWhile isSpace) s
    ([res], s)

/-- What the attributes say is looked up when the list begins. -/
def CommandCalls.listContainers (l : CommandList) (s : CommandState σ) :
    Except String (Option (List ConId)) :=
  if l.attributes = [] then .ok none
  else do
    let criteria ← l.attributes.foldlM (handOver (parseToken calls.pcre (calls.focusId s.rest)))
      (Criteria.init ρ)
    if criteriaIsEmpty criteria then .error "Criteria is empty"
    else .ok (some (calls.criteriaGetContainers s.rest criteria))

def CommandCalls.runList (l : CommandList) : CommandRun σ := fun s =>
  match calls.listContainers l s with
  | .error e => ([⟨.invalid, some e⟩], s)
  | .ok containers => runInOrder ((l.first :: l.others).map (calls.runCommand con containers)) s

def CommandCalls.runLists (lists : List CommandList) : CommandRun σ :=
  runInOrder (lists.map (calls.runList con))

@[simp] theorem stopped_nil : stopped [] = false := rfl

theorem stopped_append (a b : List CmdResults) : stopped (a ++ b) = (stopped a || stopped b) :=
  List.any_append

theorem andThen_skip (a : CommandRun σ) : andThen a skip = a := by
  funext s
  simp [andThen, skip]

theorem andThen_assoc (a b c : CommandRun σ) :
    andThen (andThen a b) c = andThen a (andThen b c) := by
  funext s
  by_cases ha : stopped (a s).1 = true
  · simp [andThen, ha]
  · by_cases hb : stopped (b (a s).2).1 = true
    · simp [andThen, stopped_append, ha, hb]
    · simp [andThen, stopped_append, ha, hb]

theorem runInOrder_cons (a : CommandRun σ) (runs : List (CommandRun σ)) :
    runInOrder (a :: runs) = andThen a (runInOrder runs) := rfl

end Runs

/-! ## What `argsep` cuts off -/

section Cut

variable {delim : List Char} {q : Quotes} {c d : Char} {w skipped rest rest' : List Char}

theorem uncut_cons_eq : uncut delim q (c :: w) = true ↔
    ¬ (q = {} ∧ c ∈ delim) ∧ uncut delim (q.argsepRead delim c) w = true := by
  rw [uncut, Bool.and_eq_true, Bool.not_eq_true', decide_eq_false_iff_not]

theorem uncut_skip (h : ∀ e ∈ skipped, isInteresting delim e = false)
    (hw : uncut delim q (skipped ++ w) = true) : uncut delim (q.skip skipped) w = true := by
  induction skipped generalizing q with
  | nil => rwa [Quotes.skip_nil]
  | cons e skipped ih =>
      have he := h e List.mem_cons_self
      have hrest := (uncut_cons_eq.mp hw).2
      rw [Quotes.argsepRead_plain he] at hrest
      have hskip := ih (fun e' he' => h e' (List.mem_cons_of_mem e he')) hrest
      -- a backslash is forgotten at the first of the characters
      have hsame : ({ q with escaped := false } : Quotes).skip skipped = q.skip (e :: skipped) := by
        rw [Quotes.skip_cons]
        unfold Quotes.skip
        rfl
      rwa [hsame] at hskip

theorem interesting_of_mem (hd : d ∈ delim) : isInteresting delim d = true := by
  unfold isInteresting
  simp [hd]

/-- The next character that is looked at is the delimiter, or stands before it. -/
theorem next_before (hd : d ∈ delim) (hskipped : ∀ e ∈ skipped, isInteresting delim e = false)
    (h : w ++ d :: rest = skipped ++ c :: rest') :
    (w = skipped ∧ c = d ∧ rest' = rest) ∨
      ∃ m, w = skipped ++ c :: m ∧ rest' = m ++ d :: rest := by
  rcases List.append_eq_append_iff.mp h with ⟨m, rfl, hm⟩ | ⟨m, rfl, hm⟩
  · cases m with
    | nil =>
        obtain ⟨rfl, rfl⟩ := List.cons.inj hm
        exact .inl ⟨(List.append_nil w).symm, rfl, rfl⟩
    | cons e m =>
        obtain ⟨rfl, -⟩ := List.cons.inj hm
        have hplain := hskipped d (List.mem_append_right w List.mem_cons_self)
        rw [interesting_of_mem hd] at hplain
        cases hplain
  · cases m with
    | nil =>
        obtain ⟨rfl, rfl⟩ := List.cons.inj hm
        exact .inl ⟨List.append_nil skipped, rfl, rfl⟩
    | cons e m =>
        obtain ⟨rfl, rfl⟩ := List.cons.inj hm
        exact .inr ⟨m, rfl, rfl⟩

theorem argsepLoop_again {a b : Argsep} (h : a.turn delim = .again b) :
    argsepLoop delim a = argsepLoop delim b := by
  rw [argsepLoop]
  split
  next h' => rw [ArgsepTurn.again.inj (h.symm.trans h')]
  next h' => cases h.symm.trans h'
  next h' => cases h.symm.trans h'

/-- The piece ends at the first delimiter. -/
theorem argsepLoop_uncut (hdelim : PlainDelims delim) (hd : d ∈ delim) {a : Argsep}
    (hrest : a.rest = w ++ d :: rest) (hw : uncut delim a.quotes w = true)
    (hne : a.piece ++ w ≠ []) : argsepLoop delim a = (a.piece ++ w, some (rest, d)) := by
  induction a using argsepLoop.induct delim generalizing w with
  | case1 a b hturn ih =>
      rw [argsepLoop_again hturn]
      have hspec := a.turns hdelim
      rw [hturn] at hspec
      cases hspec with
      | read hread hskipped hopen =>
          rcases next_before hd hskipped (hrest.symm.trans hread) with ⟨rfl, rfl, -⟩ | ⟨m, rfl, rfl⟩
          · have hnone := uncut_skip (w := []) hskipped (by rwa [List.append_nil])
            exact absurd ⟨of_decide_eq_true hnone, hd⟩ hopen
          · have hm := (uncut_cons_eq.mp (uncut_skip hskipped hw)).2
            have hloop := ih rfl hm (by simp)
            simpa using hloop
      | drop hread hquotes hc hpiece =>
          cases w with
          | nil => exact absurd (by rw [hpiece]; rfl) hne
          | cons e w =>
              obtain ⟨rfl, -⟩ := List.cons.inj (hrest.symm.trans hread)
              exact absurd ⟨hquotes, hc⟩ (uncut_cons_eq.mp hw).1
      | lag hread he =>
          cases w with
          | nil =>
              obtain ⟨rfl, -⟩ := List.cons.inj (hrest.symm.trans hread)
              rw [interesting_of_mem hd] at he
              cases he
          | cons e' w =>
              obtain ⟨rfl, hw'⟩ := List.cons.inj (hrest.symm.trans hread)
              have hm := (uncut_cons_eq.mp hw).2
              rw [Quotes.argsepRead_plain he] at hm
              have hloop := ih hw'.symm hm (by simp)
              simpa using hloop
  | case2 a piece rest' c hturn =>
      have hspec := a.turns hdelim
      rw [hturn] at hspec
      have hloop : argsepLoop delim a = (piece, some (rest', c)) := by
        rw [argsepLoop]
        split
        next h => cases hturn.symm.trans h
        next h =>
          obtain ⟨rfl, rfl, rfl⟩ := ArgsepTurn.cut.inj (hturn.symm.trans h)
          rfl
        next h => cases hturn.symm.trans h
      cases hspec with
      | cut hread hskipped hopen hc _ =>
          rcases next_before hd hskipped (hrest.symm.trans hread) with ⟨rfl, rfl, rfl⟩ | ⟨m, rfl, -⟩
          · exact hloop
          · exact absurd ⟨hopen, hc⟩ (uncut_cons_eq.mp (uncut_skip hskipped hw)).1
  | case3 a hturn =>
      have hspec := a.turns hdelim
      rw [hturn] at hspec
      cases hspec with
      | stop hplain =>
          have hd' := hplain d (by rw [hrest]; simp)
          rw [interesting_of_mem hd] at hd'
          cases hd'

/-- A text that nothing is cut off is one piece. -/
theorem cutBy_uncut {piece : List Char} (hw : uncut delim q w = true) :
    cutBy delim (Quotes.argsepRead delim) q piece w = [(piece ++ w, none)] := by
  induction w generalizing q piece with
  | nil => rw [List.append_nil]; rfl
  | cons c w ih =>
      obtain ⟨hopen, hw⟩ := uncut_cons_eq.mp hw
      rw [cutBy_read hopen, ih hw, List.append_assoc]
      rfl

theorem argsep_uncut (hdelim : PlainDelims delim) (hw : uncut delim {} w = true) :
    argsep delim w = (w, none) := by
  have hpieces := cutBy_argsepLoop hdelim (Argsep.start w)
  have hone : cutBy delim (Quotes.argsepRead delim) {} [] w = [(w, none)] := cutBy_uncut hw
  rw [show cutBy delim (Quotes.argsepRead delim) (Argsep.start w).quotes (Argsep.start w).piece
    (Argsep.start w).rest = [(w, none)] from hone] at hpieces
  unfold argsep
  split at hpieces
  next h => cases hpieces
  next piece h =>
    rw [h]
    cases hpieces
    rfl

end Cut

/-! ## Going over the text -/

section Text

variable {σ ρ : Type} {calls : CommandCalls σ ρ} {con : Option ConId} {s : CommandState σ}

theorem not_interesting_of_isSpace {c : Char} (h : isSpace c = true) :
    isInteresting commandDelims c = false := by
  rw [Bool.eq_false_iff]
  intro hc
  have hmem : c ∈ [doubleQuote, apostrophe, backslash, ';', ','] := by
    unfold isInteresting commandDelims at hc
    simpa [or_assoc] using hc
  have hnone : [doubleQuote, apostrophe, backslash, ';', ','].all (fun c => !isSpace c) = true := by
    decide
  have hspace := List.all_eq_true.mp hnone c hmem
  rw [h] at hspace
  cases hspace

theorem uncut_dropWhile {w : List Char} (hw : uncut commandDelims {} w = true) :
    uncut commandDelims {} (w.dropWhile isSpace) = true := by
  have hsplit := List.takeWhile_append_dropWhile (p := isSpace) (l := w)
  rw [← hsplit] at hw
  have hskip := uncut_skip
    (fun e he => not_interesting_of_isSpace (List.mem_takeWhile_imp he)) hw
  exact hskip

/-- A command without the spaces before it. -/
def CommandText.trimmed (c : CommandText) : List Char := c.text.dropWhile isSpace

theorem CommandText.dropWhile_append (c : CommandText) (after : List Char) :
    (c.text ++ after).dropWhile isSpace = c.trimmed ++ after := by
  have hvisible : (c.text.dropWhile isSpace).isEmpty = false :=
    List.isEmpty_eq_false_iff.mpr c.visible
  rw [List.dropWhile_append, hvisible]
  rfl

theorem CommandText.argsep_last (c : CommandText) :
    argsep commandDelims c.trimmed = (c.trimmed, none) :=
  argsep_uncut commandDelims_plain (uncut_dropWhile c.whole)

theorem CommandText.argsep_next (c : CommandText) {d : Char} (hd : d ∈ commandDelims)
    (rest : List Char) :
    argsep commandDelims (c.trimmed ++ d :: rest) = (c.trimmed, some (rest, d)) :=
  argsepLoop_uncut commandDelims_plain hd (a := Argsep.start _) rfl (uncut_dropWhile c.whole)
    c.visible

/-- What is cut off a text is run as the command it is the text of. -/
theorem handlePiece_trimmed (containers : Option (List ConId)) (c : CommandText) :
    calls.handlePiece con containers c.trimmed = calls.runCommand con containers c := by
  funext s
  unfold CommandCalls.handlePiece CommandCalls.runCommand CommandText.trimmed
  rw [List.dropWhile_idempotent]
  exact if_neg c.visible

section Turn

variable {head text : List Char} {d d' : Char} {containers containers' : Option (List ConId)}

theorem executeLoop_error {e : String}
    (h : calls.beginTurn s head d containers = .error e) :
    calls.executeLoop con s head d containers = ([⟨.invalid, some e⟩], s) := by
  rw [CommandCalls.executeLoop]
  split
  next h' => rw [Except.error.inj (h.symm.trans h')]
  next h' => cases h.symm.trans h'

theorem executeLoop_last {c : CommandText}
    (h : calls.beginTurn s head d containers = .ok (c.trimmed, containers')) :
    calls.executeLoop con s head d containers = calls.runCommand con containers' c s := by
  rw [CommandCalls.executeLoop]
  split
  next h' => cases h.symm.trans h'
  next h' =>
    obtain ⟨rfl, rfl⟩ := Prod.mk.inj (Except.ok.inj (h.symm.trans h'))
    split
    next hcut =>
      obtain ⟨rfl, -⟩ := Prod.mk.inj (c.argsep_last.symm.trans hcut)
      rw [handlePiece_trimmed]
    next hcut => cases congrArg Prod.snd (c.argsep_last.symm.trans hcut)

theorem executeLoop_next {c : CommandText} {rest : List Char} (hd : d' ∈ commandDelims)
    (h : calls.beginTurn s head d containers = .ok (c.trimmed ++ d' :: rest, containers')) :
    calls.executeLoop con s head d containers = andThen (calls.runCommand con containers' c)
      (fun s => calls.executeLoop con s rest d' containers') s := by
  rw [CommandCalls.executeLoop]
  split
  next h' => cases h.symm.trans h'
  next h' =>
    obtain ⟨rfl, rfl⟩ := Prod.mk.inj (Except.ok.inj (h.symm.trans h'))
    split
    next hcut => cases congrArg Prod.snd ((c.argsep_next hd rest).symm.trans hcut)
    next hcut =>
      obtain ⟨rfl, hsome⟩ := Prod.mk.inj ((c.argsep_next hd rest).symm.trans hcut)
      obtain ⟨rfl, rfl⟩ := Prod.mk.inj (Option.some.inj hsome)
      rw [handlePiece_trimmed]
      rfl

end Turn

/-- Behind a semicolon the containers of the list before do not matter. -/
theorem executeLoop_semicolon (head : List Char) (containers : Option (List ConId)) :
    calls.executeLoop con s head ';' containers = calls.executeLoop con s head ';' none := by
  rw [CommandCalls.executeLoop, CommandCalls.executeLoop]
  rfl

variable (calls con) in
/-- What follows a list, and what is run for it: nothing, or any text behind a semicolon. -/
inductive After : List Char → CommandRun σ → Prop
  | nothing : After [] skip
  | more (rest : List Char) :
      After (';' :: rest) fun s => calls.executeLoop con s rest ';' none

variable {after : List Char} {next : CommandRun σ}

/-- The commands of a list are run one after the other, with the same containers. -/
theorem executeLoop_commands (hafter : After calls con after next) {first : CommandText}
    {others : List CommandText} {head : List Char} {d : Char}
    {containers containers' : Option (List ConId)}
    (h : calls.beginTurn s head d containers =
      .ok (first.trimmed ++ (othersText others ++ after), containers')) :
    calls.executeLoop con s head d containers =
      andThen (runInOrder ((first :: others).map (calls.runCommand con containers'))) next s := by
  induction others generalizing first head d containers s with
  | nil =>
      rw [List.map_singleton, runInOrder_cons, show runInOrder [] = (skip : CommandRun σ) from rfl,
        andThen_skip]
      cases hafter with
      | nothing =>
          rw [andThen_skip]
          exact executeLoop_last (by rw [h]; simp [othersText])
      | more rest =>
          rw [executeLoop_next (by decide) h]
          exact congrFun (congrArg (andThen _) (funext fun s => executeLoop_semicolon rest _)) s
  | cons c others ih =>
      have htext : othersText (c :: others) ++ after =
          ',' :: (c.text ++ (othersText others ++ after)) := by simp [othersText]
      rw [htext] at h
      rw [List.map_cons, runInOrder_cons, andThen_assoc, executeLoop_next (by decide) h]
      refine congrFun (congrArg (andThen _) (funext fun s => ?_)) s
      -- behind a comma no criteria are read
      have hturn : calls.beginTurn s (c.text ++ (othersText others ++ after)) ',' containers' =
          .ok (c.trimmed ++ (othersText others ++ after), containers') := by
        rw [← CommandText.dropWhile_append]
        rfl
      exact ih hturn

/-- What the attributes of a list are read as, whatever stands behind them. -/
theorem criteriaParseRaw_written (pcre : Pcre ρ) (focusId : Nat) {attributes : List Attribute}
    (hne : attributes ≠ []) (hclose : QuotesClose attributes) (behind : List Char) :
    criteriaParseRaw pcre focusId (criteriaText attributes ++ behind) = (do
      let criteria ← attributes.foldlM (handOver (parseToken pcre focusId)) (Criteria.init ρ)
      if criteriaIsEmpty criteria then .error "Criteria is empty"
      else .ok (criteria, criteriaText attributes)) := by
  have htext : criteriaText attributes ++ behind =
      '[' :: (attributes.flatMap Attribute.text ++ ']' :: behind) := by
    simp [criteriaText]
  have hlength : attributes.length ≤
      (attributes.flatMap Attribute.text ++ ']' :: behind).length := by
    rw [List.length_append]
    exact (length_le_text attributes).trans (Nat.le_add_right _ _)
  have hraw : (criteriaText attributes ++ behind).take
      ((criteriaText attributes ++ behind).length - behind.length) = criteriaText attributes := by
    rw [List.length_append, Nat.add_sub_cancel]
    exact List.take_left' rfl
  rw [htext] at hraw
  unfold criteriaParseRaw
  rw [htext, skipSpaces_of_ne (by decide), if_neg (not_not_intro List.head?_cons), List.tail_cons]
  dsimp only
  rw [criteriaTokens_eq, readTokens_attributes hclose hlength behind rfl fun h => absurd h hne]
  cases attributes.foldlM (handOver (parseToken pcre focusId)) (Criteria.init ρ) with
  | error e => rfl
  | ok criteria =>
      dsimp only [Except.map, bind, Except.bind]
      rw [if_neg (show ¬ (']' :: behind).head? ≠ some ']' from not_not_intro rfl), List.tail_cons,
        hraw]

/-- A list begins. -/
theorem beginTurn_list (l : CommandList) :
    calls.beginTurn s (l.text ++ after) ';' none = (calls.listContainers l s).map fun containers =>
      (l.first.trimmed ++ (othersText l.others ++ after), containers) := by
  by_cases hnone : l.attributes = []
  · have htext : (l.text ++ after).dropWhile isSpace =
        l.first.trimmed ++ (othersText l.others ++ after) := by
      rw [← CommandText.dropWhile_append]
      simp [CommandList.text, hnone]
    have hplain : (l.first.trimmed ++ (othersText l.others ++ after)).head? ≠ some '[' := by
      rw [List.head?_append_of_ne_nil l.first.trimmed l.first.visible]
      exact l.plain hnone
    unfold CommandCalls.beginTurn CommandCalls.listContainers
    rw [htext, if_pos hnone]
    exact if_neg hplain
  · have htext : l.text ++ after =
        criteriaText l.attributes ++ (l.first.text ++ (othersText l.others ++ after)) := by
      simp [CommandList.text, hnone]
    have hspaces : (l.text ++ after).dropWhile isSpace = l.text ++ after := by
      rw [htext]
      exact List.dropWhile_cons_of_neg (by decide)
    have hbracket : (criteriaText l.attributes ++
        (l.first.text ++ (othersText l.others ++ after))).head? = some '[' := rfl
    have hparse := criteriaParseRaw_written calls.pcre (calls.focusId s.rest) hnone l.closes
      (l.first.text ++ (othersText l.others ++ after))
    unfold CommandCalls.beginTurn CommandCalls.listContainers
    dsimp only
    rw [hspaces, htext, if_neg hnone, if_pos rfl, if_pos hbracket, hparse]
    cases l.attributes.foldlM (handOver (parseToken calls.pcre (calls.focusId s.rest)))
        (Criteria.init ρ) with
    | error e => rfl
    | ok criteria =>
        dsimp only [bind, Except.bind, Except.map]
        split_ifs
        · rfl
        · dsimp only [pure, Except.pure]
          rw [List.drop_left, CommandText.dropWhile_append]

theorem executeLoop_list (hafter : After calls con after next) (l : CommandList) :
    calls.executeLoop con s (l.text ++ after) ';' none = andThen (calls.runList con l) next s := by
  have hturn : calls.beginTurn s (l.text ++ after) ';' none =
      (calls.listContainers l s).map _ := beginTurn_list l
  cases hcontainers : calls.listContainers l s with
  | error e =>
      rw [hcontainers] at hturn
      rw [executeLoop_error hturn]
      simp [andThen, CommandCalls.runList, hcontainers, stopped]
  | ok containers =>
      rw [hcontainers] at hturn
      rw [executeLoop_commands hafter hturn]
      simp [andThen, CommandCalls.runList, hcontainers]

theorem executeLoop_lists (hafter : After calls con after next) (l : CommandList)
    (lists : List CommandList) :
    calls.executeLoop con s (listsText l lists ++ after) ';' none =
      andThen (calls.runLists con (l :: lists)) next s := by
  induction lists generalizing l s with
  | nil =>
      calc calls.executeLoop con s (l.text ++ after) ';' none
          = andThen (calls.runList con l) next s := executeLoop_list hafter l
        _ = andThen (andThen (calls.runList con l) skip) next s := by rw [andThen_skip]
  | cons m lists ih =>
      have htext : listsText l (m :: lists) ++ after =
          l.text ++ ';' :: (listsText m lists ++ after) := by simp [listsText]
      calc calls.executeLoop con s (listsText l (m :: lists) ++ after) ';' none
          = andThen (calls.runList con l)
              (fun s => calls.executeLoop con s (listsText m lists ++ after) ';' none) s := by
            rw [htext, executeLoop_list (.more _)]
        _ = andThen (calls.runList con l) (andThen (calls.runLists con (m :: lists)) next) s :=
            congrFun (congrArg (andThen _) (funext fun s => ih m)) s
        _ = andThen (calls.runLists con (l :: m :: lists)) next s :=
            congrFun (andThen_assoc _ _ _).symm s

/-- **A text of command lists runs the lists**: one after the other, each with its own criteria
and each command with the containers they matched when the list began, up to the first result that
is `CMD_INVALID`; what stands behind a semicolon after them, whatever it is, is run as a text of
its own after they are done. -/
theorem executeCommand_lists (calls : CommandCalls σ ρ) (l : CommandList)
    (lists : List CommandList) (more : List Char) (seat : Option Nat) (con : Option ConId)
    (s : CommandState σ) :
    calls.executeCommand (listsText l lists) seat con s =
      (seat.or (calls.defaultSeat s.rest)).map (fun seat =>
        calls.runLists con (l :: lists) { s with context := { s.context with seat } }) ∧
    calls.executeCommand (listsText l lists ++ ';' :: more) seat con s =
      (seat.or (calls.defaultSeat s.rest)).map (fun seat =>
        andThen (calls.runLists con (l :: lists))
          (fun s => calls.executeLoop con s more ';' none)
          { s with context := { s.context with seat } }) := by
  unfold CommandCalls.executeCommand
  constructor
  · refine congrArg (Option.map · _) (funext fun seat => ?_)
    have hlists : calls.executeLoop con { s with context := { s.context with seat } }
        (listsText l lists ++ []) ';' none = andThen _ skip _ :=
      executeLoop_lists .nothing l lists
    rw [List.append_nil, andThen_skip] at hlists
    exact hlists
  · exact congrArg (Option.map · _) (funext fun seat => executeLoop_lists (.more more) l lists)

/-- A semicolon within the criteria cuts nothing. -/
example : ∃ l : CommandList, l.text = "[title=\"a;b\"] kill, nop".toList :=
  ⟨{  attributes := [⟨"title", "a;b".toList, 0, by decide⟩]
      closes := by decide
      first := ⟨" kill".toList, by decide, by decide⟩
      others := [⟨" nop".toList, by decide, by decide⟩]
      plain := fun h => by cases h }, by decide⟩

end Text

end Swirl
