import Swirl.Common.Argsep
import Mathlib.Tactic

set_option autoImplicit false

/-! # `unescape_string`

The loop decodes the escapes of a string in place: it leaves the character in the place of the
backslash and marks what is left over with NULs, which are shifted over at the end. The loop ends
at a NUL too, and a place it has marked ends it when it comes there. `decoded` is what the escapes
of a string stand for; `Decodable` are the strings that `unescape_string` decodes.
-/

namespace Swirl

def nul : Char := Char.ofNat 0

/-- The string that begins at the start of a buffer. -/
def cString (buffer : List Char) : List Char := buffer.takeWhile (· ≠ nul)

/-- The character that an escape of one character stands for. -/
def escapeChar (e : Char) : Option Char :=
  if e = 'a' then some (Char.ofNat 7)
  else if e = 'b' then some (Char.ofNat 8)
  else if e = 'f' then some (Char.ofNat 12)
  else if e = 'n' then some (Char.ofNat 10)
  else if e = 'r' then some (Char.ofNat 13)
  else if e = 't' then some (Char.ofNat 9)
  else if e = 'v' then some (Char.ofNat 11)
  else if e = backslash then some backslash
  else if e = apostrophe then some apostrophe
  else if e = doubleQuote then some doubleQuote
  else if e = '?' then some '?'
  else none

/-- The character behind `\x`, from one digit or two. -/
def hexChar (d : Char) : Option Char → Char
  | none => Char.ofNat (d.toNat - 48)
  | some e => Char.ofNat ((d.toNat - 48) * 16 + (e.toNat - 48))

/-! ## The loop -/

/-- How the loop is left: at a NUL, by the `return` behind `\0`, or by reading past the
terminator. -/
inductive Unescaping where
  | looped (buffer : List Char)
  | returned (buffer : List Char) (length : Nat)
  | outside
  deriving DecidableEq

/-- `case 'x'`, for the `x` at an index; `none` where the terminator is passed. -/
def unescapeHex (buffer : List Char) (i : Nat) : Option (List Char) :=
  match buffer[i + 1]? with
  | none => none
  | some d =>
      if d.isDigit then
        match buffer[i + 2]? with
        | none => none
        | some e =>
            if e.isDigit then
              some ((((buffer.set (i + 2) nul).set (i + 1) nul).set i nul).set (i - 1)
                (hexChar d (some e)))
            else some (((buffer.set (i + 1) nul).set i nul).set (i - 1) (hexChar d none))
      else some ((buffer.set i nul).set (i - 1) nul)

theorem length_unescapeHex {buffer buffer' : List Char} {i : Nat}
    (h : unescapeHex buffer i = some buffer') : buffer'.length = buffer.length := by
  unfold unescapeHex at h
  split at h
  · cases h
  · split_ifs at h
    · split at h
      · cases h
      · split_ifs at h
        all_goals
          rw [← Option.some.inj h]
          simp only [List.length_set]
    · rw [← Option.some.inj h]
      simp only [List.length_set]

/-- The loop of `unescape_string`, from an index on. -/
def unescapeLoop (buffer : List Char) (i : Nat) : Unescaping :=
  match hc : buffer[i]? with
  | none => .outside
  | some c =>
      if c = nul then .looped buffer
      else if c = backslash then
        match buffer[i + 1]? with
        | none => .outside
        | some e =>
            if e = '0' then .returned (buffer.set i nul) i
            else
              match escapeChar e with
              | some d => unescapeLoop ((buffer.set i d).set (i + 1) nul) (i + 2)
              | none =>
                  if e = 'x' then
                    match hx : unescapeHex buffer (i + 1) with
                    | none => .outside
                    | some buffer' => unescapeLoop buffer' (i + 2)
                  else unescapeLoop buffer (i + 2)
      else unescapeLoop buffer (i + 1)
termination_by buffer.length - i
decreasing_by
  all_goals have hi := (List.getElem?_eq_some_iff.mp hc).1
  · rw [List.length_set, List.length_set]
    omega
  · rw [length_unescapeHex hx]
    omega
  · omega
  · omega

/-- The loop that shifts characters over the NULs, with the turns that are left. -/
def shiftLoop : Nat → List Char → Nat → Nat → List Char × Nat
  | 0, buffer, _, shift => (buffer, shift)
  | turns + 1, buffer, i, shift =>
      if buffer.getD i nul = nul then shiftLoop turns buffer (i + 1) (shift + 1)
      else shiftLoop turns (buffer.set (i - shift) (buffer.getD i nul)) (i + 1) shift

/-- `unescape_string`: the buffer it leaves and the length it returns, `none` when it reads past
the terminator. -/
def unescapeString (s : List Char) : Option (List Char × Nat) :=
  match unescapeLoop (s ++ [nul]) 0 with
  | .outside => none
  | .returned buffer n => some (buffer, n)
  | .looped buffer =>
      let (buffer, shift) := shiftLoop s.length buffer 0 0
      some (buffer.set (s.length - shift) nul, s.length - shift)

/-! ## What a string stands for -/

/-- The pieces of a string: characters, escapes, and backslashes that are none. -/
inductive Piece where
  | char (c : Char)
  | kept (e : Char)
  | bareX
  | escape (e d : Char)
  | hex (d : Char) (e : Option Char)
  | zero
  | lone
  deriving DecidableEq

/-- A string cut into its pieces. -/
def pieces : List Char → List Piece
  | [] => []
  | c :: rest =>
      if c = backslash then
        match rest with
        | [] => [.lone]
        | e :: rest =>
            if e = '0' then .zero :: pieces rest
            else
              match escapeChar e with
              | some d => .escape e d :: pieces rest
              | none =>
                  if e = 'x' then
                    match rest with
                    | [] => [.bareX]
                    | d :: rest' =>
                        if d.isDigit then
                          match rest' with
                          | [] => [.hex d none]
                          | f :: rest'' =>
                              if f.isDigit then .hex d (some f) :: pieces rest''
                              else .hex d none :: pieces (f :: rest'')
                        else .bareX :: pieces (d :: rest')
                  else .kept e :: pieces rest
      else .char c :: pieces rest

/-- The characters of a piece. -/
def Piece.text : Piece → List Char
  | .char c => [c]
  | .kept e => [backslash, e]
  | .bareX => [backslash, 'x']
  | .escape e _ => [backslash, e]
  | .hex d none => [backslash, 'x', d]
  | .hex d (some e) => [backslash, 'x', d, e]
  | .zero => [backslash, '0']
  | .lone => [backslash]

/-- The text of some pieces. -/
def pieceText (ps : List Piece) : List Char := ps.flatMap Piece.text

/-- What pieces stand for: each escape for its character, the first NUL ends the string. -/
def decodePieces : List Piece → List Char
  | [] => []
  | .escape _ d :: ps => d :: decodePieces ps
  | .hex d e :: ps => if hexChar d e = nul then [] else hexChar d e :: decodePieces ps
  | .zero :: _ => []
  | .char c :: ps => c :: decodePieces ps
  | .kept e :: ps => backslash :: e :: decodePieces ps
  | .bareX :: ps => backslash :: 'x' :: decodePieces ps
  | .lone :: ps => backslash :: decodePieces ps

/-- **What a string stands for**: its escapes are decoded once, from left to right. -/
def decoded (s : List Char) : List Char := decodePieces (pieces s)

/-- `unescape_string` reads nothing past the terminator, leaves what the string stands for, and
returns the length of that. -/
def UnescapesRight (s : List Char) : Prop :=
  ∃ buffer n, unescapeString s = some (buffer, n) ∧ cString buffer = decoded s ∧
    n = (cString buffer).length

/-! ## When it does -/

/-- The loop goes on behind a piece. -/
def Piece.goesOn : Piece → Bool
  | .hex _ _ => false
  | .zero => false
  | .lone => false
  | .char _ => true
  | .kept _ => true
  | .bareX => true
  | .escape _ _ => true

/-- The loop marks characters of a piece. -/
def Piece.marked : Piece → Bool
  | .bareX => true
  | .escape _ _ => true
  | .char _ => false
  | .kept _ => false
  | .hex _ _ => false
  | .zero => false
  | .lone => false

/-- A piece is an escape. -/
def Piece.isEscape : Piece → Bool
  | .escape _ _ => true
  | .hex _ _ => true
  | .zero => true
  | .char _ => false
  | .kept _ => false
  | .bareX => false
  | .lone => false

/-- **The strings that `unescape_string` decodes.** In what comes before the first `\x` with a
digit, the first `\0` and a backslash at the end no `x` is without a digit. No backslash is at the
end. Nothing is marked before a `\0`. Behind `\x` with a digit nothing is an escape; where the
digits give a NUL nothing is there at all, or just what `\x` without a digit has left out. -/
def Decodable (s : List Char) : Prop :=
  let first := (pieces s).takeWhile Piece.goesOn
  match (pieces s).dropWhile Piece.goesOn with
  | [] => .bareX ∉ first
  | .zero :: _ => ∀ p ∈ first, p.marked = false
  | .hex d e :: rest =>
      if hexChar d e = nul then
        decodePieces first = decodePieces (first.filter (· ≠ .bareX)) ++ pieceText rest
      else .bareX ∉ first ∧ ∀ p ∈ rest, p.isEscape = false
  | _ :: _ => False

/-! ## One turn of the loop -/

section Turn

variable {done t : List Char}

theorem getElem?_at (done t : List Char) (k : Nat) : (done ++ t)[done.length + k]? = t[k]? := by
  rw [List.getElem?_append_right (Nat.le_add_right _ _), Nat.add_sub_cancel_left]

theorem set_at (done t : List Char) (k : Nat) (c : Char) :
    (done ++ t).set (done.length + k) c = done ++ t.set k c := by
  rw [List.set_append_right _ _ (Nat.le_add_right _ _), Nat.add_sub_cancel_left]

theorem unescapeLoop_nul : unescapeLoop (done ++ nul :: t) done.length =
    .looped (done ++ nul :: t) := by
  have h0 : (done ++ nul :: t)[done.length]? = some nul := getElem?_at done _ 0
  rw [unescapeLoop]
  split
  next h => rw [h0] at h; cases h
  next c h =>
    obtain rfl : nul = c := Option.some.inj (h0.symm.trans h)
    exact if_pos rfl

theorem unescapeLoop_char {c : Char} (hnul : c ≠ nul) (hc : c ≠ backslash) :
    unescapeLoop (done ++ c :: t) done.length =
      unescapeLoop (done ++ [c] ++ t) (done ++ [c]).length := by
  have h0 : (done ++ c :: t)[done.length]? = some c := getElem?_at done _ 0
  rw [unescapeLoop]
  split
  next h => rw [h0] at h; cases h
  next c' h =>
    obtain rfl : c = c' := Option.some.inj (h0.symm.trans h)
    rw [if_neg hnul, if_neg hc, List.append_assoc, List.length_append]
    rfl

theorem unescapeLoop_backslash {e : Char} :
    unescapeLoop (done ++ backslash :: e :: t) done.length =
      if e = '0' then .returned (done ++ nul :: e :: t) done.length
      else
        match escapeChar e with
        | some d => unescapeLoop (done ++ [d, nul] ++ t) (done ++ [d, nul]).length
        | none =>
            if e = 'x' then
              match unescapeHex (done ++ backslash :: e :: t) (done.length + 1) with
              | none => .outside
              | some buffer => unescapeLoop buffer (done.length + 2)
            else unescapeLoop (done ++ [backslash, e] ++ t) (done ++ [backslash, e]).length := by
  have h0 : (done ++ backslash :: e :: t)[done.length]? = some backslash := getElem?_at done _ 0
  have h1 : (done ++ backslash :: e :: t)[done.length + 1]? = some e := getElem?_at done _ 1
  have hset (d : Char) (u : List Char) : (done ++ u).set done.length d = done ++ u.set 0 d :=
    set_at done u 0 d
  rw [unescapeLoop]
  split
  next h => rw [h0] at h; cases h
  next c h =>
    obtain rfl : backslash = c := Option.some.inj (h0.symm.trans h)
    rw [if_neg (by decide), if_pos rfl, h1]
    dsimp only
    by_cases hzero : e = '0'
    · rw [if_pos hzero, if_pos hzero, hset]
      rfl
    rw [if_neg hzero, if_neg hzero]
    cases escapeChar e with
    | some d =>
        dsimp only
        rw [hset, set_at, List.append_assoc, List.length_append]
        rfl
    | none =>
        dsimp only
        by_cases hx : e = 'x'
        · rw [if_pos hx, if_pos hx]
          split
          next hbuffer => rw [hbuffer]
          next hbuffer => rw [hbuffer]
        · rw [if_neg hx, if_neg hx, List.append_assoc, List.length_append]
          rfl

/-- A backslash before the terminator: the character behind the terminator is read. -/
theorem unescapeLoop_lone : unescapeLoop (done ++ [backslash, nul]) done.length = .outside := by
  have hpast : (done ++ [backslash, nul] ++ [])[(done ++ [backslash, nul]).length]? = none := by
    rw [List.append_nil]
    exact List.getElem?_eq_none (Nat.le_refl _)
  rw [unescapeLoop_backslash, if_neg (by decide)]
  have hnone : escapeChar nul = none := by decide
  rw [hnone]
  dsimp only
  rw [if_neg (by decide), unescapeLoop]
  split
  next => rfl
  next h => rw [hpast] at h; cases h

theorem unescapeHex_at : unescapeHex (done ++ backslash :: 'x' :: t) (done.length + 1) =
    match t with
    | [] => none
    | d :: t' =>
        if d.isDigit then
          match t' with
          | [] => none
          | e :: t'' =>
              if e.isDigit then some (done ++ hexChar d (some e) :: nul :: nul :: nul :: t'')
              else some (done ++ hexChar d none :: nul :: nul :: e :: t'')
        else some (done ++ nul :: nul :: d :: t') := by
  have hset (d : Char) (u : List Char) : (done ++ u).set done.length d = done ++ u.set 0 d :=
    set_at done u 0 d
  unfold unescapeHex
  rw [Nat.add_sub_cancel, Nat.add_assoc, Nat.add_assoc, getElem?_at, getElem?_at]
  cases t with
  | nil => rfl
  | cons d t' =>
      dsimp only [List.getElem?_cons_succ, List.getElem?_cons_zero]
      cases hd : d.isDigit with
      | false => rw [if_neg Bool.false_ne_true, if_neg Bool.false_ne_true, set_at, hset]; rfl
      | true =>
          rw [if_pos rfl, if_pos rfl]
          cases t' with
          | nil => rfl
          | cons e t'' =>
              dsimp only [List.getElem?_cons_zero]
              cases he : e.isDigit with
              | false =>
                  rw [if_neg Bool.false_ne_true, if_neg Bool.false_ne_true, set_at, set_at, hset]
                  rfl
              | true => rw [if_pos rfl, if_pos rfl, set_at, set_at, set_at, hset]; rfl

end Turn

/-! ## The loop, piece by piece -/

/-- The loop with more before and behind what it went over. -/
def Unescaping.within (before after : List Char) : Unescaping → Unescaping
  | .looped buffer => .looped (before ++ buffer ++ after)
  | .returned buffer n => .returned (before ++ buffer ++ after) (before.length + n)
  | .outside => .outside

/-- What the loop makes of the pieces of a string. -/
def scanPieces : List Piece → Unescaping
  | [] => .looped []
  | .escape _ d :: ps => (scanPieces ps).within [d, nul] []
  | .bareX :: ps => (scanPieces ps).within [nul, nul] []
  | .hex d none :: ps => .looped (hexChar d none :: nul :: nul :: pieceText ps)
  | .hex d (some e) :: ps => .looped (hexChar d (some e) :: nul :: nul :: nul :: pieceText ps)
  | .zero :: ps => .returned (nul :: '0' :: pieceText ps) 0
  | .lone :: _ => .outside
  | .char c :: ps => (scanPieces ps).within [c] []
  | .kept e :: ps => (scanPieces ps).within [backslash, e] []

theorem Unescaping.within_nil (u : Unescaping) : u.within [] [] = u := by
  cases u with
  | looped buffer => simp [Unescaping.within]
  | returned buffer n => simp [Unescaping.within]
  | outside => rfl

theorem Unescaping.within_within (u : Unescaping) (before piece after : List Char) :
    (u.within piece []).within before after = u.within (before ++ piece) after := by
  cases u with
  | looped buffer => simp [Unescaping.within]
  | returned buffer n => simp [Unescaping.within, Nat.add_assoc]
  | outside => rfl

/-! ## The pieces of a string -/

section Pieces

variable {rest : List Char}

theorem pieces_char {c : Char} (hc : c ≠ backslash) :
    pieces (c :: rest) = .char c :: pieces rest := by
  conv_lhs => unfold pieces
  exact if_neg hc

theorem pieces_zero : pieces (backslash :: '0' :: rest) = .zero :: pieces rest := by
  conv_lhs => unfold pieces
  rfl

theorem pieces_escape {e d : Char} (hzero : e ≠ '0') (hd : escapeChar e = some d) :
    pieces (backslash :: e :: rest) = .escape e d :: pieces rest := by
  conv_lhs => unfold pieces
  dsimp only
  rw [if_pos rfl, if_neg hzero, hd]

theorem pieces_kept {e : Char} (hzero : e ≠ '0') (he : escapeChar e = none) (hx : e ≠ 'x') :
    pieces (backslash :: e :: rest) = .kept e :: pieces rest := by
  conv_lhs => unfold pieces
  dsimp only
  rw [if_pos rfl, if_neg hzero, he]
  exact if_neg hx

theorem pieces_hexOne {d : Char} (hd : d.isDigit = true) (hrest : ∀ e ∈ rest.head?, ¬ e.isDigit) :
    pieces (backslash :: 'x' :: d :: rest) = .hex d none :: pieces rest := by
  have hnone : escapeChar 'x' = none := rfl
  conv_lhs => unfold pieces
  dsimp only
  rw [if_pos rfl, if_neg (by decide), hnone]
  dsimp only
  rw [if_pos rfl, if_pos hd]
  cases rest with
  | nil => rfl
  | cons e rest =>
      dsimp only
      rw [if_neg (hrest e rfl)]

theorem pieces_hexTwo {d e : Char} (hd : d.isDigit = true) (he : e.isDigit = true) :
    pieces (backslash :: 'x' :: d :: e :: rest) = .hex d (some e) :: pieces rest := by
  have hnone : escapeChar 'x' = none := rfl
  conv_lhs => unfold pieces
  dsimp only
  rw [if_pos rfl, if_neg (by decide), hnone]
  dsimp only
  rw [if_pos rfl, if_pos hd, if_pos he]

theorem pieces_bareX (hrest : ∀ d ∈ rest.head?, ¬ d.isDigit) :
    pieces (backslash :: 'x' :: rest) = .bareX :: pieces rest := by
  have hnone : escapeChar 'x' = none := rfl
  conv_lhs => unfold pieces
  dsimp only
  rw [if_pos rfl, if_neg (by decide), hnone]
  dsimp only
  rw [if_pos rfl]
  cases rest with
  | nil => rfl
  | cons d rest =>
      dsimp only
      rw [if_neg (hrest d rfl)]

end Pieces

/-- The ways a string begins, with what is behind its first piece. -/
theorem pieces_induction {motive : List Char → Prop} (nil : motive [])
    (char : ∀ c rest, c ≠ backslash → pieces (c :: rest) = .char c :: pieces rest →
      motive rest → motive (c :: rest))
    (kept : ∀ e rest, e ≠ '0' → escapeChar e = none → e ≠ 'x' →
      pieces (backslash :: e :: rest) = .kept e :: pieces rest →
      motive rest → motive (backslash :: e :: rest))
    (bareX : ∀ rest, (∀ d ∈ rest.head?, ¬ d.isDigit) →
      pieces (backslash :: 'x' :: rest) = .bareX :: pieces rest →
      motive rest → motive (backslash :: 'x' :: rest))
    (escape : ∀ e d rest, e ≠ '0' → escapeChar e = some d →
      pieces (backslash :: e :: rest) = .escape e d :: pieces rest →
      motive rest → motive (backslash :: e :: rest))
    (hexOne : ∀ d rest, d.isDigit = true → (∀ e ∈ rest.head?, ¬ e.isDigit) →
      pieces (backslash :: 'x' :: d :: rest) = .hex d none :: pieces rest →
      motive rest → motive (backslash :: 'x' :: d :: rest))
    (hexTwo : ∀ d e rest, d.isDigit = true → e.isDigit = true →
      pieces (backslash :: 'x' :: d :: e :: rest) = .hex d (some e) :: pieces rest →
      motive rest → motive (backslash :: 'x' :: d :: e :: rest))
    (zero : ∀ rest, pieces (backslash :: '0' :: rest) = .zero :: pieces rest →
      motive rest → motive (backslash :: '0' :: rest))
    (lone : pieces [backslash] = [.lone] → motive [backslash])
    (s : List Char) : motive s := by
  have hempty : ∀ d ∈ ([] : List Char).head?, ¬ d.isDigit := fun d hd => by cases hd
  induction s using pieces.induct with
  | case1 => exact nil
  | case2 => exact lone rfl
  | case3 rest ih => exact zero rest pieces_zero ih
  | case4 e rest hzero d hd ih => exact escape e d rest hzero hd (pieces_escape hzero hd) ih
  | case5 => exact bareX [] hempty (pieces_bareX hempty) nil
  | case6 d hd => exact hexOne d [] hd hempty (pieces_hexOne hd hempty) nil
  | case7 d hd e rest he _ _ ih => exact hexTwo d e rest hd he (pieces_hexTwo hd he) ih
  | case8 d hd e rest he _ _ ih =>
      have hrest : ∀ f ∈ (e :: rest).head?, ¬ f.isDigit := by simpa using he
      exact hexOne d (e :: rest) hd hrest (pieces_hexOne hd hrest) ih
  | case9 d rest hd _ _ ih =>
      have hrest : ∀ f ∈ (d :: rest).head?, ¬ f.isDigit := by simpa using hd
      exact bareX (d :: rest) hrest (pieces_bareX hrest) ih
  | case10 e rest hzero he hx ih => exact kept e rest hzero he hx (pieces_kept hzero he hx) ih
  | case11 c rest hc ih => exact char c rest hc (pieces_char hc) ih

theorem pieceText_pieces (s : List Char) : pieceText (pieces s) = s := by
  induction s using pieces_induction with
  | nil => rfl
  | lone => rfl
  | char c rest _ hpieces ih | kept c rest _ _ _ hpieces ih | bareX rest _ hpieces ih
  | escape c d rest _ _ hpieces ih | hexOne d rest _ _ hpieces ih | hexTwo d e rest _ _ hpieces ih
  | zero rest hpieces ih =>
      rw [hpieces]
      unfold pieceText at ih ⊢
      rw [List.flatMap_cons, ih]
      rfl

/-- **The loop** does with the pieces of a string what `scanPieces` says. -/
theorem unescapeLoop_scan {s : List Char} (hs : nul ∉ s) (done : List Char) :
    unescapeLoop (done ++ (s ++ [nul])) done.length =
      (scanPieces (pieces s)).within done [nul] := by
  induction s using pieces_induction generalizing done with
  | nil =>
      rw [List.nil_append, unescapeLoop_nul]
      simp [pieces, scanPieces, Unescaping.within]
  | lone =>
      exact unescapeLoop_lone
  | char c rest hc hpieces ih =>
      rw [List.mem_cons, not_or] at hs
      rw [List.cons_append, unescapeLoop_char (Ne.symm hs.1) hc, ih hs.2, hpieces]
      exact ((scanPieces (pieces rest)).within_within done [c] [nul]).symm
  | kept e rest hzero he hx hpieces ih =>
      rw [List.mem_cons, not_or, List.mem_cons, not_or] at hs
      rw [List.cons_append, List.cons_append, unescapeLoop_backslash, if_neg hzero, he]
      dsimp only
      rw [if_neg hx, ih hs.2.2, hpieces]
      exact ((scanPieces (pieces rest)).within_within done [backslash, e] [nul]).symm
  | bareX rest hrest hpieces ih =>
      rw [List.mem_cons, not_or, List.mem_cons, not_or] at hs
      have hnone : escapeChar 'x' = none := rfl
      -- the terminator is not a digit either
      have hbuffer : unescapeHex (done ++ backslash :: 'x' :: (rest ++ [nul])) (done.length + 1) =
          some (done ++ [nul, nul] ++ (rest ++ [nul])) := by
        rw [unescapeHex_at, List.append_assoc]
        cases rest with
        | nil => rfl
        | cons d rest => exact if_neg (hrest d rfl)
      have hlength : done.length + 2 = (done ++ [nul, nul]).length := by
        rw [List.length_append]
        rfl
      rw [List.cons_append, List.cons_append, unescapeLoop_backslash, if_neg (by decide), hnone]
      dsimp only
      rw [if_pos rfl, hbuffer]
      dsimp only
      rw [hlength, ih hs.2.2, hpieces]
      exact ((scanPieces (pieces rest)).within_within done [nul, nul] [nul]).symm
  | escape e d rest hzero hd hpieces ih =>
      rw [List.mem_cons, not_or, List.mem_cons, not_or] at hs
      rw [List.cons_append, List.cons_append, unescapeLoop_backslash, if_neg hzero, hd]
      dsimp only
      rw [ih hs.2.2, hpieces]
      exact ((scanPieces (pieces rest)).within_within done [d, nul] [nul]).symm
  | hexOne d rest hd hrest hpieces ih =>
      have hnone : escapeChar 'x' = none := rfl
      have hbuffer : unescapeHex (done ++ backslash :: 'x' :: d :: (rest ++ [nul]))
          (done.length + 1) = some (done ++ [hexChar d none, nul] ++ nul :: (rest ++ [nul])) := by
        rw [unescapeHex_at, List.append_assoc]
        dsimp only
        rw [if_pos hd]
        cases rest with
        | nil => rfl
        | cons e rest => exact if_neg (hrest e rfl)
      have hlength : done.length + 2 = (done ++ [hexChar d none, nul]).length := by
        rw [List.length_append]
        rfl
      rw [List.cons_append, List.cons_append, List.cons_append, unescapeLoop_backslash,
        if_neg (by decide), hnone]
      dsimp only
      rw [if_pos rfl, hbuffer]
      dsimp only
      rw [hlength, unescapeLoop_nul, hpieces]
      simp [scanPieces, Unescaping.within, pieceText_pieces]
  | hexTwo d e rest hd he hpieces ih =>
      have hnone : escapeChar 'x' = none := rfl
      have hbuffer : unescapeHex (done ++ backslash :: 'x' :: d :: e :: (rest ++ [nul]))
          (done.length + 1) =
          some (done ++ [hexChar d (some e), nul] ++ nul :: nul :: (rest ++ [nul])) := by
        rw [unescapeHex_at, List.append_assoc]
        dsimp only
        rw [if_pos hd, if_pos he]
        rfl
      have hlength : done.length + 2 = (done ++ [hexChar d (some e), nul]).length := by
        rw [List.length_append]
        rfl
      rw [List.cons_append, List.cons_append, List.cons_append, List.cons_append,
        unescapeLoop_backslash, if_neg (by decide), hnone]
      dsimp only
      rw [if_pos rfl, hbuffer]
      dsimp only
      rw [hlength, unescapeLoop_nul, hpieces]
      simp [scanPieces, Unescaping.within, pieceText_pieces]
  | zero rest hpieces ih =>
      rw [List.cons_append, List.cons_append, unescapeLoop_backslash, if_pos rfl, hpieces]
      simp [scanPieces, Unescaping.within, pieceText_pieces]

/-! ## Shifting over the NULs -/

theorem getD_at (done t : List Char) (c : Char) :
    (done ++ c :: t).getD done.length nul = c := by
  rw [List.getD_eq_getElem?_getD]
  have h0 : (done ++ c :: t)[done.length]? = some c := getElem?_at done _ 0
  rw [h0]
  rfl

/-- The loop that shifts characters: what was kept of the buffer, the places that are free, and
what is still to be looked at. -/
theorem shiftLoop_eq (rest kept free tail : List Char) :
    ∃ free', shiftLoop rest.length (kept ++ free ++ rest ++ tail) (kept ++ free).length
        free.length = (kept ++ rest.filter (· ≠ nul) ++ free' ++ tail, free'.length) ∧
      (kept ++ rest.filter (· ≠ nul) ++ free').length = (kept ++ free ++ rest).length := by
  induction rest generalizing kept free with
  | nil =>
      refine ⟨free, ?_, ?_⟩
      · rw [List.filter_nil, List.append_nil, List.append_nil]
        rfl
      · rw [List.filter_nil, List.append_nil, List.append_nil]
  | cons c rest ih =>
      have hget : (kept ++ free ++ (c :: rest) ++ tail).getD (kept ++ free).length nul = c := by
        rw [List.append_assoc (kept ++ free)]
        exact getD_at (kept ++ free) (rest ++ tail) c
      rw [List.length_cons, shiftLoop, hget]
      by_cases hc : c = nul
      · -- one more place is free
        obtain ⟨free', hloop, hlength⟩ := ih kept (free ++ [c])
        have hbuffer : kept ++ (free ++ [c]) ++ rest ++ tail =
            kept ++ free ++ (c :: rest) ++ tail := by simp
        have hindex : (kept ++ (free ++ [c])).length = (kept ++ free).length + 1 := by
          simp only [List.length_append, List.length_cons, List.length_nil]
          omega
        have hfree : (free ++ [c]).length = free.length + 1 := by simp
        rw [hbuffer, hindex, hfree] at hloop
        refine ⟨free', ?_, ?_⟩
        · rw [if_pos hc, hloop, List.filter_cons_of_neg (by simpa using hc)]
        · rw [List.filter_cons_of_neg (by simpa using hc), hlength]
          simp
      · -- the character moves to the first free place
        rw [if_neg hc, List.filter_cons_of_pos (by simpa using hc)]
        have hplace : (kept ++ free).length - free.length = kept.length := by
          rw [List.length_append, Nat.add_sub_cancel]
        have hset (u : List Char) : (kept ++ u).set kept.length c = kept ++ u.set 0 c :=
          set_at kept u 0 c
        rw [hplace]
        cases free with
        | nil =>
            obtain ⟨free', hloop, hlength⟩ := ih (kept ++ [c]) []
            have hbuffer : (kept ++ [] ++ (c :: rest) ++ tail).set kept.length c =
                kept ++ [c] ++ [] ++ rest ++ tail := by
              rw [List.append_nil, List.append_nil, List.append_assoc, hset]
              simp
            have hindex : (kept ++ []).length + 1 = (kept ++ [c] ++ []).length := by simp
            refine ⟨free', ?_, ?_⟩
            · rw [hbuffer, hindex, hloop, List.append_assoc kept]
              rfl
            · rw [← List.singleton_append (l := rest.filter _), ← List.append_assoc, hlength]
              simp
        | cons f free =>
            obtain ⟨free', hloop, hlength⟩ := ih (kept ++ [c]) (free ++ [c])
            have hbuffer : (kept ++ (f :: free) ++ (c :: rest) ++ tail).set kept.length c =
                kept ++ [c] ++ (free ++ [c]) ++ rest ++ tail := by
              rw [List.append_assoc, List.append_assoc, hset]
              simp
            have hindex : (kept ++ (f :: free)).length + 1 =
                (kept ++ [c] ++ (free ++ [c])).length := by
              simp only [List.length_append, List.length_cons, List.length_nil]
              omega
            have hfree : (f :: free).length = (free ++ [c]).length := by simp
            refine ⟨free', ?_, ?_⟩
            · rw [hbuffer, hindex, hfree, hloop, List.append_assoc kept]
              rfl
            · rw [← List.singleton_append (l := rest.filter _), ← List.append_assoc, hlength]
              simp

theorem length_cString_le (s t : List Char) : (cString (s ++ nul :: t)).length ≤ s.length := by
  unfold cString
  induction s with
  | nil =>
      rw [List.nil_append, List.takeWhile_cons_of_neg (by simp)]
  | cons c s ih =>
      rw [List.cons_append, List.takeWhile_cons]
      split_ifs
      · exact Nat.succ_le_succ ih
      · exact Nat.zero_le _

theorem cString_append_nul {s t : List Char} (hs : nul ∉ s) : cString (s ++ nul :: t) = s := by
  unfold cString
  rw [List.takeWhile_append_of_pos, List.takeWhile_cons_of_neg (by simp), List.append_nil]
  intro c hc
  rw [decide_eq_true_iff]
  rintro rfl
  exact hs hc

/-- **A loop that ends at a NUL** leaves the characters it has not marked, and their number is
returned. -/
theorem unescapeString_looped {s marked : List Char}
    (hloop : unescapeLoop (s ++ [nul]) 0 = .looped (marked ++ [nul]))
    (hlength : marked.length = s.length) :
    ∃ buffer, unescapeString s = some (buffer, (marked.filter (· ≠ nul)).length) ∧
      cString buffer = marked.filter (· ≠ nul) := by
  obtain ⟨free, hshift, hsum⟩ := shiftLoop_eq marked [] [] [nul]
  simp only [List.nil_append, List.length_nil] at hshift hsum
  have hleft : s.length - free.length = (marked.filter (· ≠ nul)).length := by
    rw [List.length_append] at hsum
    omega
  have hset (u : List Char) : (marked.filter (· ≠ nul) ++ u).set
      (marked.filter (· ≠ nul)).length nul = marked.filter (· ≠ nul) ++ u.set 0 nul :=
    set_at _ u 0 nul
  refine ⟨(marked.filter (· ≠ nul) ++ free ++ [nul]).set
    (marked.filter (· ≠ nul)).length nul, ?_, ?_⟩
  · unfold unescapeString
    rw [hloop]
    dsimp only
    rw [← hlength, hshift, hlength, hleft]
  · have hmarked : nul ∉ marked.filter (· ≠ nul) := by simp
    rw [List.append_assoc, hset]
    cases free with
    | nil => exact cString_append_nul hmarked
    | cons f free => exact cString_append_nul hmarked

/-! ## The pieces before the loop ends -/

/-- What the loop leaves in the place of a piece behind which it goes on. -/
def Piece.cells : Piece → List Char
  | .escape _ d => [d, nul]
  | .bareX => [nul, nul]
  | .char c => [c]
  | .kept e => [backslash, e]
  | .hex d e => Piece.text (.hex d e)
  | .zero => [backslash, '0']
  | .lone => [backslash]

/-- The pieces without those that are left out. -/
def withoutBareX (ps : List Piece) : List Piece := ps.filter (· ≠ .bareX)

/-- The characters of a piece are those of an escape. -/
def Piece.Proper : Piece → Prop
  | .escape e d => escapeChar e = some d
  | .hex d none => d.isDigit = true
  | .hex d (some e) => d.isDigit = true ∧ e.isDigit = true
  | .char _ => True
  | .kept _ => True
  | .bareX => True
  | .zero => True
  | .lone => True

theorem pieces_proper {s : List Char} : ∀ p ∈ pieces s, p.Proper := by
  induction s using pieces_induction with
  | nil => exact fun p hp => by cases hp
  | lone =>
      intro p hp
      obtain rfl := List.mem_singleton.mp hp
      exact trivial
  | char c rest _ hpieces ih | kept c rest _ _ _ hpieces ih | bareX rest _ hpieces ih
  | zero rest hpieces ih =>
      rw [hpieces]
      exact List.forall_mem_cons.mpr ⟨trivial, ih⟩
  | escape e d rest _ hd hpieces ih =>
      rw [hpieces]
      exact List.forall_mem_cons.mpr ⟨hd, ih⟩
  | hexOne d rest hd _ hpieces ih =>
      rw [hpieces]
      exact List.forall_mem_cons.mpr ⟨hd, ih⟩
  | hexTwo d e rest hd he hpieces ih =>
      rw [hpieces]
      exact List.forall_mem_cons.mpr ⟨⟨hd, he⟩, ih⟩

/-- An escape of one character stands for none of the characters that digits are told by. -/
theorem escapeChar_some {e d : Char} (h : escapeChar e = some d) :
    d ≠ nul ∧ d.isDigit = false ∧ e.isDigit = false ∧ d ≠ 'x' ∧ e ≠ 'x' := by
  unfold escapeChar at h
  repeat' split at h
  all_goals cases h
  all_goals
    subst e
    decide

section Before

variable {first rest : List Piece}

theorem scanPieces_append (h : ∀ p ∈ first, p.goesOn = true) :
    scanPieces (first ++ rest) = (scanPieces rest).within (first.flatMap Piece.cells) [] := by
  induction first with
  | nil => exact (scanPieces rest).within_nil.symm
  | cons p first ih =>
      obtain ⟨hp, hfirst⟩ := List.forall_mem_cons.mp h
      have hone : scanPieces (p :: (first ++ rest)) =
          (scanPieces (first ++ rest)).within p.cells [] := by
        cases p <;> first | rfl | cases hp
      rw [List.cons_append, hone, ih hfirst, Unescaping.within_within, List.flatMap_cons]

theorem decodePieces_append (h : ∀ p ∈ first, p.goesOn = true) :
    decodePieces (first ++ rest) = decodePieces first ++ decodePieces rest := by
  induction first with
  | nil => rfl
  | cons p first ih =>
      obtain ⟨hp, hfirst⟩ := List.forall_mem_cons.mp h
      cases p with
      | char c => exact congrArg (c :: ·) (ih hfirst)
      | kept e => exact congrArg (backslash :: e :: ·) (ih hfirst)
      | bareX => exact congrArg (backslash :: 'x' :: ·) (ih hfirst)
      | escape e d => exact congrArg (d :: ·) (ih hfirst)
      | hex | zero | lone => cases hp

/-- The characters that are not marked are what the pieces stand for, without the `x` that have no
digit. -/
theorem filter_cells (h : ∀ p ∈ first, p.goesOn = true) (hproper : ∀ p ∈ first, p.Proper)
    (hnul : nul ∉ pieceText first) :
    (first.flatMap Piece.cells).filter (· ≠ nul) = decodePieces (withoutBareX first) := by
  induction first with
  | nil => rfl
  | cons p first ih =>
      obtain ⟨hp, hfirst⟩ := List.forall_mem_cons.mp h
      obtain ⟨hpp, hproper⟩ := List.forall_mem_cons.mp hproper
      unfold pieceText at hnul
      rw [List.flatMap_cons, List.mem_append, not_or] at hnul
      have ih := ih hfirst hproper hnul.2
      have htext : p.text.filter (· ≠ nul) = p.text := by
        rw [List.filter_eq_self]
        intro c hc
        rw [decide_eq_true_iff]
        rintro rfl
        exact hnul.1 hc
      rw [List.flatMap_cons, List.filter_append, ih]
      unfold withoutBareX
      cases p with
      | char c | kept e =>
          rw [List.filter_cons_of_pos (by simp)]
          exact congrArg (· ++ _) htext
      | bareX =>
          rw [List.filter_cons_of_neg (by simp)]
          rfl
      | escape e d =>
          rw [List.filter_cons_of_pos (by simp)]
          have hd := (escapeChar_some hpp).1
          have hcells : (Piece.escape e d).cells.filter (· ≠ nul) = [d] := by
            unfold Piece.cells
            rw [List.filter_cons_of_pos (by simpa using hd), List.filter_cons_of_neg (by simp)]
            rfl
          rw [hcells]
          rfl
      | hex | zero | lone => cases hp

theorem length_cells : (first.flatMap Piece.cells).length = (pieceText first).length := by
  induction first with
  | nil => rfl
  | cons p first ih =>
      unfold pieceText at ih ⊢
      rw [List.flatMap_cons, List.flatMap_cons, List.length_append, List.length_append, ih]
      cases p <;> rfl

end Before

/-! ## Counting characters -/

section Counting

/-- One digit stands for a control character. -/
theorem hexChar_one {d : Char} (hd : d.isDigit = true) : (hexChar d none).isDigit = false := by
  have hbounds : 48 ≤ d.toNat ∧ d.toNat ≤ 57 := by
    unfold Char.isDigit at hd
    rw [Bool.and_eq_true, decide_eq_true_iff, decide_eq_true_iff] at hd
    exact hd
  have hvalue : d.toNat - 48 ≤ 9 := by omega
  unfold hexChar
  generalize d.toNat - 48 = n at hvalue
  interval_cases n <;> decide

/-- A piece stands for a character that its digits tell. -/
def Piece.isNumber : Piece → Bool
  | .hex _ _ => true
  | .zero => true
  | .char _ => false
  | .kept _ => false
  | .bareX => false
  | .escape _ _ => false
  | .lone => false

/-- What a piece stands for that has no digits. -/
def Piece.decoded : Piece → List Char
  | .escape _ d => [d]
  | .char c => [c]
  | .kept e => [backslash, e]
  | .bareX => [backslash, 'x']
  | .hex d e => Piece.text (.hex d e)
  | .zero => [backslash, '0']
  | .lone => [backslash]

variable {p : Piece} {ps : List Piece}

theorem decodePieces_cons (h : p.isNumber = false) :
    decodePieces (p :: ps) = p.decoded ++ decodePieces ps := by
  cases p with
  | char | kept | bareX | escape | lone => rfl
  | hex | zero => cases h

theorem pieceText_cons : pieceText (p :: ps) = p.text ++ pieceText ps := List.flatMap_cons

theorem digits_decoded (h : p.isNumber = false) (hp : p.Proper) :
    p.decoded.countP Char.isDigit = p.text.countP Char.isDigit := by
  cases p with
  | char | kept | bareX | lone => rfl
  | escape e d =>
      obtain ⟨-, hd, he, -⟩ := escapeChar_some hp
      have hslash : backslash.isDigit = false := by decide
      unfold Piece.decoded Piece.text
      rw [List.countP_cons_of_neg (by simp [hd]), List.countP_cons_of_neg (by simp [hslash]),
        List.countP_cons_of_neg (by simp [he])]
  | hex | zero => cases h

/-- Digits are lost with every piece that stands for a character by its digits, and never
gained. -/
theorem digits_decodePieces (hproper : ∀ p ∈ ps, p.Proper) :
    (decodePieces ps).countP Char.isDigit + ps.countP Piece.isNumber ≤
      (pieceText ps).countP Char.isDigit := by
  induction ps with
  | nil => exact Nat.le_refl 0
  | cons p ps ih =>
      obtain ⟨hp, hproper⟩ := List.forall_mem_cons.mp hproper
      have ih := ih hproper
      rw [pieceText_cons, List.countP_append]
      cases hnumber : p.isNumber with
      | false =>
          rw [decodePieces_cons hnumber, List.countP_append, digits_decoded hnumber hp,
            List.countP_cons_of_neg (by simp [hnumber])]
          omega
      | true =>
          rw [List.countP_cons_of_pos hnumber]
          cases p with
          | char | kept | bareX | escape | lone => cases hnumber
          | zero =>
              have hnone : (decodePieces (.zero :: ps)).countP Char.isDigit = 0 := rfl
              have hzero : Piece.zero.text.countP Char.isDigit = 1 := rfl
              omega
          | hex d e =>
              have hgone : (decodePieces (.hex d e :: ps)).countP Char.isDigit ≤
                  [hexChar d e].countP Char.isDigit + (decodePieces ps).countP Char.isDigit := by
                have hdecode : decodePieces (.hex d e :: ps) =
                  if hexChar d e = nul then [] else hexChar d e :: decodePieces ps := rfl
                rw [hdecode, ← List.countP_append]
                split_ifs
                · exact Nat.zero_le _
                · exact Nat.le_refl _
              have hmore : [hexChar d e].countP Char.isDigit + 1 ≤
                  (Piece.hex d e).text.countP Char.isDigit := by
                cases e with
                | none =>
                    have hd : d.isDigit = true := hp
                    rw [List.countP_cons_of_neg (by simp [hexChar_one hd])]
                    simp [Piece.text, hd]
                | some e =>
                    have hle := List.countP_le_length (p := Char.isDigit) (l := [hexChar d (some e)])
                    rw [List.length_singleton] at hle
                    have htwo : (Piece.hex d (some e)).text.countP Char.isDigit ≥ 2 := by
                      simp [Piece.text, List.countP_cons, hp.1, hp.2]
                    omega
              omega

/-- Without digits no `x` is lost. -/
theorem x_decodePieces (hproper : ∀ p ∈ ps, p.Proper) (hps : ∀ p ∈ ps, p.isNumber = false) :
    (decodePieces ps).count 'x' = (pieceText ps).count 'x' := by
  induction ps with
  | nil => rfl
  | cons p ps ih =>
      obtain ⟨hp, hproper⟩ := List.forall_mem_cons.mp hproper
      obtain ⟨hnumber, hps⟩ := List.forall_mem_cons.mp hps
      rw [decodePieces_cons hnumber, pieceText_cons, List.count_append, List.count_append,
        ih hproper hps]
      cases p with
      | char | kept | bareX | lone => rfl
      | escape e d =>
          obtain ⟨-, -, -, hd, he⟩ := escapeChar_some hp
          have hnone : (Piece.escape e d).text.count 'x' = 0 :=
            List.count_eq_zero.mpr (by simpa [Piece.text, backslash, eq_comm] using he)
          have hnone' : (Piece.escape e d).decoded.count 'x' = 0 :=
            List.count_eq_zero.mpr (by simpa [Piece.decoded, eq_comm] using hd)
          rw [hnone, hnone']
      | hex | zero => cases hnumber

theorem isNumber_of_isEscape (h : p.isEscape = false) : p.isNumber = false := by
  cases p <;> first | rfl | cases h

theorem length_decodePieces (hps : ∀ p ∈ ps, p.isNumber = false) :
    (decodePieces ps).length + ps.countP Piece.isEscape = (pieceText ps).length := by
  induction ps with
  | nil => rfl
  | cons p ps ih =>
      obtain ⟨hnumber, hps⟩ := List.forall_mem_cons.mp hps
      have ih := ih hps
      rw [decodePieces_cons hnumber, pieceText_cons, List.length_append, List.length_append,
        List.countP_cons]
      cases p with
      | char | kept | bareX | lone =>
          simp only [Piece.decoded, Piece.text, Piece.isEscape, Bool.false_eq_true, if_false]
          omega
      | escape e d =>
          simp only [Piece.decoded, Piece.text, Piece.isEscape, List.length_cons, List.length_nil,
            if_true]
          omega
      | hex | zero => cases hnumber

/-- Pieces with as many digits as they stand for tell no character by digits. -/
theorem isNumber_of_digits (hproper : ∀ p ∈ ps, p.Proper)
    (h : (pieceText ps).countP Char.isDigit ≤ (decodePieces ps).countP Char.isDigit) :
    ∀ p ∈ ps, p.isNumber = false := by
  have hdigits := digits_decodePieces hproper
  have hzero : ps.countP Piece.isNumber = 0 := by omega
  intro p hp
  rw [List.countP_eq_zero] at hzero
  exact Bool.eq_false_iff.mpr (hzero p hp)

/-- Pieces stand for their own text when none of them is an escape, and only then. -/
theorem decodePieces_eq_text (hproper : ∀ p ∈ ps, p.Proper) :
    decodePieces ps = pieceText ps ↔ ∀ p ∈ ps, p.isEscape = false := by
  constructor
  · intro h
    have hnumber := isNumber_of_digits hproper (Nat.le_of_eq (by rw [h]))
    have hlength := length_decodePieces hnumber
    have hzero : ps.countP Piece.isEscape = 0 := by
      rw [h] at hlength
      omega
    intro p hp
    rw [List.countP_eq_zero] at hzero
    exact Bool.eq_false_iff.mpr (hzero p hp)
  · intro h
    have hnumber : ∀ p ∈ ps, p.isNumber = false := fun p hp => isNumber_of_isEscape (h p hp)
    clear hproper
    induction ps with
    | nil => rfl
    | cons p ps ih =>
        obtain ⟨hp, h⟩ := List.forall_mem_cons.mp h
        obtain ⟨hone, hnumber⟩ := List.forall_mem_cons.mp hnumber
        rw [decodePieces_cons hone, pieceText_cons, ih h hnumber]
        cases p with
        | char | kept | bareX | lone => rfl
        | escape | hex | zero => cases hp

/-- What an `x` without a digit leaves out is seen in the number of `x`, and not in that of the
digits. -/
theorem count_withoutBareX (hps : ∀ p ∈ ps, p.isNumber = false) :
    (decodePieces ps).count 'x' =
        (decodePieces (withoutBareX ps)).count 'x' + ps.count .bareX ∧
      (decodePieces ps).countP Char.isDigit =
        (decodePieces (withoutBareX ps)).countP Char.isDigit := by
  induction ps with
  | nil => exact ⟨rfl, rfl⟩
  | cons p ps ih =>
      obtain ⟨hnumber, hps⟩ := List.forall_mem_cons.mp hps
      obtain ⟨hx, hdigit⟩ := ih hps
      rw [decodePieces_cons hnumber, List.count_append, List.countP_append]
      unfold withoutBareX at hx hdigit ⊢
      by_cases hp : p = .bareX
      · subst hp
        have htwo : (Piece.bareX.decoded).count 'x' = 1 := by decide
        have hnone : (Piece.bareX.decoded).countP Char.isDigit = 0 := by decide
        rw [List.filter_cons_of_neg (by simp), List.count_cons_self, htwo, hnone]
        omega
      · rw [List.filter_cons_of_pos (by simpa using hp), decodePieces_cons hnumber,
          List.count_append, List.countP_append, List.count_cons_of_ne (by simpa using hp)]
        omega

theorem withoutBareX_eq_self : withoutBareX ps = ps ↔ .bareX ∉ ps := by
  unfold withoutBareX
  rw [List.filter_eq_self]
  constructor
  · intro h hmem
    simpa using h _ hmem
  · intro h p hp
    rw [decide_eq_true_iff]
    rintro rfl
    exact h hp

end Counting

/-! ## How the loop ends -/

section Ends

variable {s : List Char} {first rest : List Piece}

/-- A string without NULs, cut where the loop stops to go on. -/
structure Stops (s : List Char) (first rest : List Piece) : Prop where
  pieces : pieces s = first ++ rest
  goesOn : ∀ p ∈ first, p.goesOn = true
  noNul : nul ∉ s

namespace Stops

theorem text (h : Stops s first rest) : pieceText first ++ pieceText rest = s := by
  rw [← pieceText_pieces s, h.pieces]
  exact List.flatMap_append.symm

theorem noNulFirst (h : Stops s first rest) : nul ∉ pieceText first := fun hmem =>
  h.noNul (h.text ▸ List.mem_append_left _ hmem)

theorem noNulRest (h : Stops s first rest) : nul ∉ pieceText rest := fun hmem =>
  h.noNul (h.text ▸ List.mem_append_right _ hmem)

theorem properFirst (h : Stops s first rest) : ∀ p ∈ first, p.Proper := fun p hp =>
  pieces_proper p (h.pieces ▸ List.mem_append_left _ hp)

theorem properRest (h : Stops s first rest) : ∀ p ∈ rest, p.Proper := fun p hp =>
  pieces_proper p (h.pieces ▸ List.mem_append_right _ hp)

theorem isNumber (h : Stops s first rest) : ∀ p ∈ first, p.isNumber = false := by
  intro p hp
  have hgoes := h.goesOn p hp
  cases p <;> first | rfl | cases hgoes

theorem decoded (h : Stops s first rest) :
    decoded s = decodePieces first ++ decodePieces rest := by
  unfold Swirl.decoded
  rw [h.pieces, decodePieces_append h.goesOn]

theorem loop (h : Stops s first rest) : unescapeLoop (s ++ [nul]) 0 =
    (scanPieces rest).within (first.flatMap Piece.cells) [nul] := by
  have hscan := unescapeLoop_scan h.noNul []
  rw [h.pieces, scanPieces_append h.goesOn, Unescaping.within_within] at hscan
  exact hscan

theorem filter (h : Stops s first rest) :
    (first.flatMap Piece.cells).filter (· ≠ nul) = decodePieces (withoutBareX first) :=
  filter_cells h.goesOn h.properFirst h.noNulFirst

end Stops

theorem unescapesRight_looped {marked : List Char}
    (hloop : unescapeLoop (s ++ [nul]) 0 = .looped (marked ++ [nul]))
    (hlength : marked.length = s.length) :
    UnescapesRight s ↔ marked.filter (· ≠ nul) = decoded s := by
  obtain ⟨buffer, hrun, hleft⟩ := unescapeString_looped hloop hlength
  constructor
  · rintro ⟨buffer', n, hrun', hdecode, -⟩
    obtain ⟨rfl, -⟩ := Prod.mk.inj (Option.some.inj (hrun.symm.trans hrun'))
    rw [← hleft, hdecode]
  · intro hdecode
    exact ⟨buffer, _, hrun, hleft.trans hdecode, by rw [hleft]⟩

/-- Characters are marked where a piece is. -/
theorem nul_mem_cells (hproper : ∀ p ∈ first, p.goesOn = true) (hnul : nul ∉ pieceText first) :
    nul ∉ first.flatMap Piece.cells ↔ ∀ p ∈ first, p.marked = false := by
  induction first with
  | nil => simp
  | cons p first ih =>
      obtain ⟨hp, hfirst⟩ := List.forall_mem_cons.mp hproper
      rw [pieceText_cons, List.mem_append, not_or] at hnul
      rw [List.flatMap_cons, List.mem_append, not_or, ih hfirst hnul.2, List.forall_mem_cons]
      have hone : nul ∉ p.cells ↔ p.marked = false := by
        cases p with
        | char | kept => exact ⟨fun _ => rfl, fun _ => hnul.1⟩
        | bareX => simp [Piece.cells, Piece.marked]
        | escape => simp [Piece.cells, Piece.marked]
        | hex | zero | lone => cases hp
      rw [hone]

/-- A loop that ends at the terminator. -/
theorem unescapesRight_end (h : Stops s first []) : UnescapesRight s ↔ .bareX ∉ first := by
  have hloop : unescapeLoop (s ++ [nul]) 0 = .looped (first.flatMap Piece.cells ++ [nul]) := by
    rw [h.loop]
    simp [scanPieces, Unescaping.within]
  have hlength : (first.flatMap Piece.cells).length = s.length := by
    rw [length_cells, ← h.text]
    simp [pieceText]
  have hdecode : decoded s = decodePieces first := by
    rw [h.decoded]
    exact List.append_nil _
  rw [unescapesRight_looped hloop hlength, h.filter, hdecode]
  constructor
  · intro heq hmem
    have hcount := (count_withoutBareX h.isNumber).1
    have hpos := List.count_pos_iff.mpr hmem
    rw [heq] at hcount
    omega
  · intro hbare
    rw [withoutBareX_eq_self.mpr hbare]

/-- **A `return` behind `\0`** is right when nothing was marked before. -/
theorem unescapesRight_zero (h : Stops s first (.zero :: rest)) :
    UnescapesRight s ↔ ∀ p ∈ first, p.marked = false := by
  have hrun : unescapeString s =
      some (first.flatMap Piece.cells ++ nul :: ('0' :: pieceText rest ++ [nul]),
        (first.flatMap Piece.cells).length) := by
    unfold unescapeString
    rw [h.loop]
    simp [scanPieces, Unescaping.within]
  have hdecode : decoded s = decodePieces first := by
    rw [h.decoded]
    exact List.append_nil _
  rw [← nul_mem_cells h.goesOn h.noNulFirst]
  constructor
  · rintro ⟨buffer, n, hrun', -, hlength⟩ hmem
    obtain ⟨rfl, rfl⟩ := Prod.mk.inj (Option.some.inj (hrun.symm.trans hrun'))
    -- the string ends at the first mark
    obtain ⟨u, v, hcells⟩ := List.append_of_mem hmem
    have hshort := length_cString_le u (v ++ nul :: ('0' :: pieceText rest ++ [nul]))
    have hbuffer : u ++ nul :: (v ++ nul :: ('0' :: pieceText rest ++ [nul])) =
        first.flatMap Piece.cells ++ nul :: ('0' :: pieceText rest ++ [nul]) := by
      rw [hcells]
      simp
    rw [hbuffer, ← hlength, hcells, List.length_append, List.length_cons] at hshort
    omega
  · intro hcells
    have hmarked := (nul_mem_cells h.goesOn h.noNulFirst).mp hcells
    have hall : (first.flatMap Piece.cells).filter (· ≠ nul) = first.flatMap Piece.cells := by
      rw [List.filter_eq_self]
      intro c hc
      rw [decide_eq_true_iff]
      rintro rfl
      exact hcells hc
    have hbare : .bareX ∉ first := fun hmem => absurd (hmarked _ hmem) (by decide)
    refine ⟨_, _, hrun, ?_, ?_⟩
    · rw [cString_append_nul hcells, hdecode, ← hall, h.filter, withoutBareX_eq_self.mpr hbare]
    · rw [cString_append_nul hcells]

/-- A backslash at the end is not a place to stop at. -/
theorem unescapesRight_lone (h : Stops s first (.lone :: rest)) : ¬ UnescapesRight s := by
  rintro ⟨buffer, n, hrun, -⟩
  unfold unescapeString at hrun
  rw [h.loop] at hrun
  cases hrun

/-- A loop that ends at its own mark, behind `\x` with a digit. -/
theorem unescapesRight_hex {d : Char} {e : Option Char} (h : Stops s first (.hex d e :: rest)) :
    UnescapesRight s ↔ decodePieces (withoutBareX first) ++
      [hexChar d e].filter (· ≠ nul) ++ pieceText rest =
        decodePieces first ++ decodePieces (.hex d e :: rest) := by
  have hrest : nul ∉ pieceText rest := by
    have hnul := h.noNulRest
    rw [pieceText_cons, List.mem_append, not_or] at hnul
    exact hnul.2
  have hfilter : (pieceText rest).filter (· ≠ nul) = pieceText rest := by
    rw [List.filter_eq_self]
    intro c hc
    rw [decide_eq_true_iff]
    rintro rfl
    exact hrest hc
  obtain ⟨marks, hscan, hmarks, hlengthMarks⟩ : ∃ marks,
      scanPieces (.hex d e :: rest) = .looped (hexChar d e :: marks ++ pieceText rest) ∧
      marks.filter (· ≠ nul) = [] ∧
      (hexChar d e :: marks).length = (Piece.hex d e).text.length := by
    cases e with
    | none => exact ⟨[nul, nul], rfl, rfl, rfl⟩
    | some e => exact ⟨[nul, nul, nul], rfl, rfl, rfl⟩
  have hloop : unescapeLoop (s ++ [nul]) 0 = .looped
      (first.flatMap Piece.cells ++ (hexChar d e :: marks ++ pieceText rest) ++ [nul]) := by
    rw [h.loop, hscan]
    rfl
  have hlength : (first.flatMap Piece.cells ++ (hexChar d e :: marks ++ pieceText rest)).length =
      s.length := by
    rw [List.length_append, List.length_append, length_cells, hlengthMarks, ← h.text,
      pieceText_cons, List.length_append, List.length_append]
  have hleft : (first.flatMap Piece.cells ++ (hexChar d e :: marks ++ pieceText rest)).filter
      (· ≠ nul) = decodePieces (withoutBareX first) ++ [hexChar d e].filter (· ≠ nul) ++
        pieceText rest := by
    rw [List.filter_append, h.filter, List.filter_append, hfilter, List.append_assoc,
      ← List.singleton_append (l := marks), List.filter_append, hmarks, List.append_nil]
  rw [unescapesRight_looped hloop hlength, hleft, h.decoded]

/-- Text behind a character that is not lost cannot make up for what was left out: it would need
as many digits as it stands for, and more `x`. -/
theorem bareX_not_mem_of_eq {c : Char} (hfirst : ∀ p ∈ first, p.isNumber = false)
    (hrest : ∀ p ∈ rest, p.Proper)
    (h : decodePieces (withoutBareX first) ++ [c] ++ pieceText rest =
      decodePieces first ++ c :: decodePieces rest) : .bareX ∉ first := by
  intro hmem
  obtain ⟨hx, hdigits⟩ := count_withoutBareX hfirst
  have hpos := List.count_pos_iff.mpr hmem
  have hcountDigits := congrArg (List.countP Char.isDigit) h
  have hcountX := congrArg (List.count 'x') h
  rw [← List.singleton_append (x := c) (l := decodePieces rest)] at hcountDigits hcountX
  simp only [List.countP_append, List.count_append] at hcountDigits hcountX
  have hnumber := isNumber_of_digits hrest (by omega)
  have hrestX := x_decodePieces hrest hnumber
  omega

end Ends

/-- A string without NULs, which are what ends a string. -/
structure Text where
  chars : List Char
  noNul : nul ∉ chars

theorem unescapesRight_iff {s : List Char} (hs : nul ∉ s) : UnescapesRight s ↔ Decodable s := by
  have h : Stops s ((pieces s).takeWhile Piece.goesOn) ((pieces s).dropWhile Piece.goesOn) :=
    ⟨List.takeWhile_append_dropWhile.symm, fun p hp => List.mem_takeWhile_imp hp, hs⟩
  have hstop := List.head?_dropWhile_not Piece.goesOn (pieces s)
  unfold Decodable
  dsimp only
  generalize (pieces s).takeWhile Piece.goesOn = first at h ⊢
  cases hrest : (pieces s).dropWhile Piece.goesOn with
  | nil =>
      rw [hrest] at h
      exact unescapesRight_end h
  | cons p rest =>
      rw [hrest] at h hstop
      cases p with
      | char | kept | bareX | escape => cases hstop
      | zero => exact unescapesRight_zero h
      | lone => exact iff_of_false (unescapesRight_lone h) not_false
      | hex d e =>
          have hdecode : decodePieces (.hex d e :: rest) =
            if hexChar d e = nul then [] else hexChar d e :: decodePieces rest := rfl
          have hproper := (List.forall_mem_cons.mp h.properRest).2
          dsimp only
          rw [unescapesRight_hex h, hdecode]
          by_cases hc : hexChar d e = nul
          · rw [if_pos hc, if_pos hc, List.filter_cons_of_neg (by simpa using hc), List.filter_nil,
              List.append_nil, List.append_nil]
            exact eq_comm
          · rw [if_neg hc, if_neg hc, List.filter_cons_of_pos (by simpa using hc), List.filter_nil,
              ← decodePieces_eq_text hproper]
            constructor
            · intro heq
              have hbare := bareX_not_mem_of_eq h.isNumber hproper heq
              rw [withoutBareX_eq_self.mpr hbare, List.append_assoc] at heq
              have hcons := List.append_cancel_left heq
              exact ⟨hbare, (List.cons.inj hcons).2.symm⟩
            · rintro ⟨hbare, hrest⟩
              rw [withoutBareX_eq_self.mpr hbare, hrest, List.append_assoc]
              rfl

/-- **`unescape_string`** reads nothing past the terminator, leaves what the string stands for and
returns its length for the strings of `Decodable`, and for no other. -/
theorem unescapeString_right_iff (s : Text) : UnescapesRight s.chars ↔ Decodable s.chars :=
  unescapesRight_iff s.noNul

/-- Behind a number nothing is decoded. -/
theorem unescapeString_number : ¬ UnescapesRight "\\x41\\n".toList := by
  have hchars : "\\x41\\n".toList = ['\\', 'x', '4', '1', '\\', 'n'] := String.toList_ofList
  rw [hchars]
  intro h
  have hcond := (unescapesRight_iff (by decide)).mp h
  have hrest : ∀ p ∈ [Piece.escape 'n' (Char.ofNat 10)], p.isEscape = false := hcond.2
  exact absurd (hrest _ List.mem_cons_self) (by decide)

end Swirl
