import Swirl.Common.Stringop
import Swirl.Lib.Lines

set_option autoImplicit false

/-! # Reading a config file

`read_config` of `config.c` with its helpers. A file is the list of its lines, each with its
newline: `getline` takes the first one, and going back to a position is keeping the list. The text
has no NUL bytes, so that a C string holds every line.

The commands themselves are a parameter: what `read_config` passes to them, and in which block,
is recorded in the order of the calls. Line numbers, which the commands may log, are left out.
-/

namespace Swirl

open Lib

/-- A line of a config file, or what is left of one. -/
abbrev Line := List Char

def newline : Char := Char.ofNat 10
def openBrace : Char := Char.ofNat 123
def closeBrace : Char := Char.ofNat 125

/-! ## Lines -/

/-- The line goes on: it ends in a backslash and a newline, and does not begin with `#`. -/
def continues (line : Line) : Bool :=
  decide (2 ≤ line.length ∧ line.drop (line.length - 2) = [backslash, newline] ∧
    line.head? ≠ some '#')

/-- The loop of `getline_with_cont`. -/
def joinLine (line : Line) : List Line → Line × List Line
  | [] => (line, [])
  | next :: rest =>
      if continues line then joinLine (line.take (line.length - 2) ++ next) rest
      else (line, next :: rest)

/-- `getline_with_cont`: the line, and the file after it. -/
def getlineWithCont : List Line → Option (Line × List Line)
  | [] => none
  | line :: rest => some (joinLine line rest)

/-- `detect_brace`: the file after the first line that is not blank, when that line is a brace. -/
def detectBrace : List Line → Option (List Line)
  | [] => none
  | line :: rest =>
      let line := stripWhitespace line
      if line = [] then detectBrace rest
      else if line = [openBrace] then some rest
      else none

/-- `expand_line` -/
def expandLine (block : Option Line) (line : Line) (addBrace : Bool) : Line :=
  (match block with | some b => b ++ [' '] | none => []) ++ line ++
    (if addBrace then [' ', openBrace] else [])

/-! ## Commands -/

/-- `enum cmd_status`, with the name of the block that is entered. -/
inductive CmdStatus where
  | success
  | failure
  | invalid
  | defer
  | block (name : Line)
  | blockCommands
  | blockEnd
  deriving DecidableEq, Repr

/-- What `read_config` calls, on the rest of the configuration. -/
structure ConfigCommands (σ : Type) where
  /-- `config_command` -/
  command : σ → Line → σ × CmdStatus
  /-- `config_commands_command` -/
  commandsCommand : σ → Line → σ × CmdStatus
  /-- `list_add` to the queue of deferred commands -/
  defer : σ → Line → σ
  /-- `config->current_bar = NULL` -/
  clearBar : σ → σ
  /-- `memset` of the handler context -/
  clearContext : σ → σ

/-- What reading has come to: the configuration, the blocks from the innermost one out, whether
all went well, and the calls so far with the blocks they were made in. -/
structure ConfigRun (σ : Type) where
  config : σ
  stack : List Line
  success : Bool
  calls : List (Option Line × Line)

section Reading

variable {σ : Type} (h : ConfigCommands σ)

def barBlock : Line := "bar".toList
def commandsBlock : Line := "<commands>".toList

/-- `switch (res->status)` -/
def ConfigRun.handle (r : ConfigRun σ) (expanded : Line) : CmdStatus → ConfigRun σ
  | .success => r
  | .failure => { r with success := false }
  | .invalid => { r with success := false }
  | .defer => { r with config := h.defer r.config expanded }
  | .blockCommands => { r with stack := commandsBlock :: r.stack }
  | .block name =>
      { r with
        stack := name :: r.stack
        config := if name = barBlock then h.clearBar r.config else r.config }
  | .blockEnd =>
      match r.stack with
      | [] => { r with success := false }
      | block :: stack =>
          { r with
            stack
            config := h.clearContext (if block = barBlock then h.clearBar r.config else r.config) }

/-- A command line is run in the innermost block. -/
def ConfigRun.line (r : ConfigRun σ) (line : Line) (brace : Bool) : ConfigRun σ :=
  let block := r.stack.head?
  let expanded := expandLine block line brace
  let res :=
    if block = some commandsBlock then h.commandsCommand r.config expanded
    else h.command r.config expanded
  ConfigRun.handle h { r with config := res.1, calls := r.calls ++ [(block, expanded)] } expanded
    res.2

/-- A line without its newline and without the blanks around it. -/
def lineText (line : Line) : Line :=
  stripWhitespace (if line.getLast? = some newline then line.dropLast else line)

/-- `!*line || line[0] == '#'` -/
def isSkipped (text : Line) : Bool := decide (text = [] ∨ text.head? = some '#')

/-- `read_config` looks for a brace after the line. -/
def takesBrace (text : Line) : Bool :=
  decide (text.getLast? ≠ some openBrace ∧ text.getLast? ≠ some closeBrace)

/-- The loop of `read_config`, for a number of lines. The main config of `size` bytes is copied
while it is read. -/
def readLoop (size : Option Nat) : Nat → List Line → ConfigRun σ → List Char →
    ConfigRun σ × List Char
  | 0, _, r, stored => (r, stored)
  | n + 1, file, r, stored =>
      match getlineWithCont file with
      | none => (r, stored)
      | some (line, rest) =>
          if size.any fun k => k < stored.length + line.length then
            -- config file changed during reading
            ({ r with success := false }, stored)
          else
            let stored := if size.isSome then stored ++ line else stored
            let text := lineText line
            if isSkipped text then readLoop size n rest r stored
            else
              let brace := if takesBrace text then detectBrace rest else none
              readLoop size n (brace.getD rest) (r.line h text brace.isSome) stored

/-- `read_config`, of the main config or of an included one: the run, and the text stored as the
current config. -/
def readConfig (config : σ) (text : List Char) (main : Bool) : ConfigRun σ × List Char :=
  let file := lines newline text
  readLoop h (if main then some text.length else none) file.length file
    { config, stack := [], success := true, calls := [] } []

end Reading

end Swirl
