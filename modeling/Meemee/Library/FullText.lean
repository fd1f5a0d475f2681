import Mathlib.Data.List.Basic
import Mathlib.Data.List.TakeWhile

/-!
# Full-text query expressions

The query language of FTS5: an expression is read up to its first NUL character and cut into tokens; a
string ends at the first double quote that is not doubled, and `OR` binds weakest. A quoted string is
read back as itself, so alternatives between quoted strings are a query for exactly these.
-/
namespace Library.FullText
open List

inductive Fault
  | unterminatedString
  | syntaxError
  deriving DecidableEq, Repr

inductive Operator
  | or
  | and
  | not
  deriving DecidableEq, Repr

/-- `text true` is a quoted string, `text false` a bareword. -/
inductive Token
  | leftParen
  | rightParen
  | leftBrace
  | rightBrace
  | colon
  | comma
  | plus
  | star
  | minus
  | caret
  | operator (op : Operator)
  | text (quoted : Bool) (content : List Char)
  deriving DecidableEq, Repr

/-- What the lexer has begun; a quote ends a string unless another follows. -/
inductive Mode
  | between
  | bare (word : List Char)
  | quoted (content : List Char)
  | closing (content : List Char)
  deriving DecidableEq, Repr

def isSpace (c : Char) : Bool := c = ' ' || c = '\t' || c = '\n' || c = '\r'

def isBareword (c : Char) : Bool :=
  c.isAlphanum || c = '_' || c.toNat = 26 || decide (128 ≤ c.toNat)

def symbol : Char → Option Token
  | '(' => some .leftParen
  | ')' => some .rightParen
  | '\x7b' => some .leftBrace
  | '\x7d' => some .rightBrace
  | ':' => some .colon
  | ',' => some .comma
  | '+' => some .plus
  | '*' => some .star
  | '-' => some .minus
  | '^' => some .caret
  | _ => none

/-- A finished bareword: one of the three operators, or text. -/
def bareword (word : List Char) : Token :=
  if word = ['O', 'R'] then .operator .or
  else if word = ['A', 'N', 'D'] then .operator .and
  else if word = ['N', 'O', 'T'] then .operator .not
  else .text false word

/-- The character with which a token may begin. -/
def begun (c : Char) : Except Fault (List Token × Mode) :=
  if isSpace c then .ok ([], .between)
  else if c = '"' then .ok ([], .quoted [])
  else match symbol c with
    | some token => .ok ([token], .between)
    | none => if isBareword c then .ok ([], .bare [c]) else .error .syntaxError

/-- One character: the tokens it finishes, and what is begun after it. -/
def lexChar (c : Char) : Mode → Except Fault (List Token × Mode)
  | .between => begun c
  | .bare word =>
    if isBareword c then .ok ([], .bare (word ++ [c]))
    else (begun c).map fun next => (bareword word :: next.1, next.2)
  | .quoted content => .ok ([], if c = '"' then .closing content else .quoted (content ++ [c]))
  | .closing content =>
    if c = '"' then .ok ([], .quoted (content ++ ['"']))
    else (begun c).map fun next => (.text true content :: next.1, next.2)

def lexEnd : Mode → Except Fault (List Token)
  | .between => .ok []
  | .bare word => .ok [bareword word]
  | .quoted _ => .error .unterminatedString
  | .closing content => .ok [.text true content]

def lex : Mode → List Char → Except Fault (List Token)
  | mode, [] => lexEnd mode
  | mode, c :: rest => do
    let (tokens, next) ← lexChar c mode
    let later ← lex next rest
    pure (tokens ++ later)

inductive Columns
  | only (names : List (List Char))
  | without (names : List (List Char))
  deriving DecidableEq, Repr

structure Term where
  content : List Char
  isPrefix : Bool
  deriving DecidableEq, Repr

/-- Phrases that stand near each other, in some columns, at their beginning if `initial`. -/
structure Near where
  columns : Option Columns
  initial : Bool
  phrases : List (List Term)
  distance : Option (List Char)
  deriving DecidableEq, Repr

inductive Query
  | near (near : Near)
  | filtered (columns : Columns) (query : Query)
  | both (op : Operator) (left right : Query)
  deriving DecidableEq, Repr

def texts : List Token → List (List Char) × List Token
  | .text _ name :: rest => (name :: (texts rest).1, (texts rest).2)
  | rest => ([], rest)

/-- A column filter, with the tokens after its colon. -/
def columns : List Token → Option (Columns × List Token)
  | .text _ name :: .colon :: rest => some (.only [name], rest)
  | .minus :: .text _ name :: .colon :: rest => some (.without [name], rest)
  | .leftBrace :: rest =>
    match texts rest with
    | (name :: names, .rightBrace :: .colon :: rest) => some (.only (name :: names), rest)
    | _ => none
  | .minus :: .leftBrace :: rest =>
    match texts rest with
    | (name :: names, .rightBrace :: .colon :: rest) => some (.without (name :: names), rest)
    | _ => none
  | _ => none

def phrase : List Token → Option (List Term × List Token)
  | .text _ content :: .star :: .plus :: rest =>
    (phrase rest).map fun next => (⟨content, true⟩ :: next.1, next.2)
  | .text _ content :: .plus :: rest =>
    (phrase rest).map fun next => (⟨content, false⟩ :: next.1, next.2)
  | .text _ content :: .star :: rest => some ([⟨content, true⟩], rest)
  | .text _ content :: rest => some ([⟨content, false⟩], rest)
  | _ => none

def phrases : Nat → List Token → List (List Term) × List Token
  | 0, tokens => ([], tokens)
  | fuel + 1, tokens =>
    match phrase tokens with
    | none => ([], tokens)
    | some (terms, rest) => (terms :: (phrases fuel rest).1, (phrases fuel rest).2)

/-- One set of near phrases: `^ phrase`, `NEAR ( phrases )`, `NEAR ( phrases , number )` or a
phrase. A string before a parenthesis is no phrase. -/
def nearSet (filter : Option Columns) : List Token → Option (Near × List Token)
  | .caret :: rest => (phrase rest).map fun next => (⟨filter, true, [next.1], none⟩, next.2)
  | .text false ['N', 'E', 'A', 'R'] :: .leftParen :: rest =>
    match phrases rest.length rest with
    | (terms :: more, .rightParen :: rest) => some (⟨filter, false, terms :: more, none⟩, rest)
    | (terms :: more, .comma :: .text _ number :: .rightParen :: rest) =>
      if number.all Char.isDigit then some (⟨filter, false, terms :: more, some number⟩, rest)
      else none
    | _ => none
  | .text _ _ :: .leftParen :: _ => none
  | tokens => (phrase tokens).map fun next => (⟨filter, false, [next.1], none⟩, next.2)

def columnSet (tokens : List Token) : Option (Near × List Token) :=
  match columns tokens with
  | some (filter, rest) => nearSet (some filter) rest
  | none => nearSet none tokens

def beginsSet : List Token → Bool
  | .text _ _ :: _ | .caret :: _ | .minus :: _ | .leftBrace :: _ => true
  | _ => false

/-- Sets that stand beside each other are all asked for. -/
def beside : Nat → Query → List Token → Option (Query × List Token)
  | 0, _, _ => none
  | fuel + 1, query, tokens =>
    if beginsSet tokens then
      (columnSet tokens).bind fun next => beside fuel (.both .and query (.near next.1)) next.2
    else some (query, tokens)

def Operator.tighter : Operator → Option Operator
  | .or => some .and
  | .and => some .not
  | .not => none

def closed : Option (Query × List Token) → Option (Query × List Token)
  | some (query, .rightParen :: rest) => some (query, rest)
  | _ => none

mutual

/-- An operand of the operators that bind less tightly than `level`. -/
def operand : Nat → Option Operator → List Token → Option (Query × List Token)
  | 0, _, _ => none
  | fuel + 1, some op, tokens =>
    (operand fuel op.tighter tokens).bind fun first => chain fuel op first.1 first.2
  | fuel + 1, none, .leftParen :: rest => closed (operand fuel (some .or) rest)
  | fuel + 1, none, tokens =>
    match columns tokens with
    | some (filter, .leftParen :: rest) =>
      (closed (operand fuel (some .or) rest)).map fun inner => (.filtered filter inner.1, inner.2)
    | _ => (columnSet tokens).bind fun first => beside fuel (.near first.1) first.2

/-- The further operands of one operator, grouped to the left. -/
def chain : Nat → Operator → Query → List Token → Option (Query × List Token)
  | 0, _, _, _ => none
  | fuel + 1, op, query, tokens =>
    match tokens with
    | .operator next :: rest =>
      if next = op then
        (operand fuel op.tighter rest).bind fun second =>
          chain fuel op (.both op query second.1) second.2
      else some (query, tokens)
    | _ => some (query, tokens)

end

/-- The tokens as one query: each level of operators takes one unit of fuel, and what it
encloses holds a token less. -/
def parse (tokens : List Token) : Except Fault Query :=
  match operand (4 * tokens.length + 4) (some .or) tokens with
  | some (query, []) => .ok query
  | _ => .error .syntaxError

def upToNul (expression : List Char) : List Char := expression.takeWhile (· != '\x00')

def read (expression : List Char) : Except Fault Query := do
  parse (← lex .between (upToNul expression))

/-- `'"' + part.replace('"', '""') + '"'`: a quoted string, every quote in it doubled. -/
def doubled (content : List Char) : List Char :=
  content.flatMap fun c => if c = '"' then ['"', '"'] else [c]

def quote (content : List Char) : List Char := '"' :: doubled content ++ ['"']

def alternatives (strings : List (List Char)) : List Char :=
  [' ', 'O', 'R', ' '].intercalate (strings.map quote)

/-- The query for one string. -/
def word (content : List Char) : Query := .near ⟨none, false, [[⟨content, false⟩]], none⟩

/-- The query for any of the strings. -/
def any (first : List Char) (rest : List (List Char)) : Query :=
  rest.foldl (fun query content => .both .or query (word content)) (word first)

theorem lex_step (tokens : List Token) (next : Mode) {c : Char} {mode : Mode} {rest : List Char}
    (step : lexChar c mode = .ok (tokens, next)) :
    lex mode (c :: rest) = (lex next rest).map (tokens ++ ·) := by
  rw [lex, step]
  change (do let later ← lex next rest; pure (tokens ++ later)) = _
  cases lex next rest <;> rfl

theorem lex_within (next : Mode) {c : Char} {mode : Mode} {rest : List Char}
    (step : lexChar c mode = .ok ([], next)) : lex mode (c :: rest) = lex next rest := by
  rw [lex_step _ _ step]
  cases lex next rest <;> rfl

theorem lex_doubled (content read rest : List Char) :
    lex (.quoted read) (doubled content ++ rest) = lex (.quoted (read ++ content)) rest := by
  induction content generalizing read with
  | nil => rw [List.append_nil]; rfl
  | cons c content ih =>
    have step : lex (.quoted read) (doubled (c :: content) ++ rest) =
        lex (.quoted (read ++ [c])) (doubled content ++ rest) := by
      rw [doubled, List.flatMap_cons, ← doubled, List.append_assoc]
      by_cases same : c = '"'
      · rw [if_pos same, same, cons_append, cons_append, nil_append,
          lex_within (.closing read) rfl, lex_within _ rfl]
      · rw [if_neg same, cons_append]
        exact lex_within _ (by simp only [lexChar, same, ↓reduceIte])
    rw [step, ih, append_assoc, singleton_append]

theorem lex_quote (content rest : List Char) :
    lex .between (quote content ++ rest) = lex (.closing content) rest := by
  rw [quote, cons_append, cons_append, lex_within (.quoted []) rfl,
    append_assoc, lex_doubled, singleton_append,
    lex_within (.closing content) rfl]

/-- The tokens of the alternatives. -/
def alternativeTokens : List (List Char) → List Token
  | [] => []
  | [content] => [.text true content]
  | content :: rest => .text true content :: .operator .or :: alternativeTokens rest

theorem lex_or (content rest : List Char) :
    lex (.closing content) ([' ', 'O', 'R', ' '] ++ rest) =
      (lex .between rest).map ([.text true content, .operator .or] ++ ·) := by
  simp only [cons_append, nil_append]
  rw [lex_step [.text true content] .between rfl,
    lex_within (.bare ['O']) rfl, lex_within (.bare ['O', 'R']) rfl,
    lex_step [.operator .or] .between rfl]
  cases lex .between rest <;> rfl

theorem alternatives_cons (content next : List Char) (rest : List (List Char)) :
    alternatives (content :: next :: rest) =
      quote content ++ ([' ', 'O', 'R', ' '] ++ alternatives (next :: rest)) := by
  simp [alternatives]

theorem lex_alternatives (strings : List (List Char)) :
    lex .between (alternatives strings) = .ok (alternativeTokens strings) := by
  induction strings with
  | nil => rfl
  | cons content rest ih =>
    cases rest with
    | nil =>
      rw [alternatives, map_singleton, intercalate_singleton,
        ← append_nil (quote content), lex_quote]
      rfl
    | cons next rest =>
      rw [alternatives_cons, lex_quote, lex_or, ih]
      rfl

/-- The tokens after one string: the others, each behind its `OR`. -/
def furtherTokens : List (List Char) → List Token
  | [] => []
  | content :: rest => .operator .or :: .text true content :: furtherTokens rest

theorem alternativeTokens_eq (content : List Char) (rest : List (List Char)) :
    alternativeTokens (content :: rest) = .text true content :: furtherTokens rest := by
  induction rest generalizing content with
  | nil => rfl
  | cons next rest ih =>
    change Token.text true content :: .operator .or :: alternativeTokens (next :: rest) = _
    rw [ih, furtherTokens]

theorem furtherTokens_length (strings : List (List Char)) :
    (furtherTokens strings).length = 2 * strings.length := by
  induction strings with
  | nil => rfl
  | cons content rest ih =>
    rw [furtherTokens, length_cons, length_cons, length_cons]
    omega

theorem operand_string (fuel : Nat) (content : List Char) (strings : List (List Char)) :
    operand (fuel + 4) (some .and) (.text true content :: furtherTokens strings) =
      some (word content, furtherTokens strings) := by
  cases strings <;> rfl

theorem chain_strings (strings : List (List Char)) (fuel : Nat) (query : Query) :
    chain (strings.length + fuel + 5) .or query (furtherTokens strings) =
      some (strings.foldl (fun query content => .both .or query (word content)) query, []) := by
  induction strings generalizing query with
  | nil => rfl
  | cons content rest ih =>
    have fuels : (content :: rest).length + fuel + 5 = (rest.length + fuel + 5) + 1 := by
      rw [length_cons]
      omega
    rw [fuels, furtherTokens, chain]
    change (operand ((rest.length + fuel + 1) + 4) (some .and) _).bind _ = _
    rw [operand_string]
    exact ih (.both .or query (word content))

theorem parse_alternatives (content : List Char) (rest : List (List Char)) :
    parse (alternativeTokens (content :: rest)) = .ok (any content rest) := by
  have fuels : 4 * (alternativeTokens (content :: rest)).length + 4 =
      (rest.length + (7 * rest.length + 2) + 5) + 1 := by
    rw [alternativeTokens_eq, length_cons, furtherTokens_length]
    omega
  rw [parse, fuels, alternativeTokens_eq, operand]
  have first : operand (rest.length + (7 * rest.length + 2) + 5) Operator.or.tighter
      (.text true content :: furtherTokens rest) = some (word content, furtherTokens rest) :=
    operand_string (rest.length + (7 * rest.length + 2) + 1) content rest
  rw [first, Option.bind_some, chain_strings]
  rfl

theorem upToNul_append {front : List Char} (free : '\x00' ∉ front) (rest : List Char) :
    upToNul (front ++ rest) = front ++ upToNul rest := by
  refine takeWhile_append_of_pos fun c mem => ?_
  rw [bne_iff_ne]
  rintro rfl
  exact free mem

theorem upToNul_free {text : List Char} (free : '\x00' ∉ text) : upToNul text = text := by
  have whole := upToNul_append free []
  rwa [show upToNul [] = [] from rfl, append_nil] at whole

variable {content : List Char} {strings : List (List Char)}

theorem nul_doubled : '\x00' ∈ doubled content ↔ '\x00' ∈ content := by
  have plain : ∀ c : Char, '\x00' ∈ (if c = '"' then ['"', '"'] else [c]) ↔ '\x00' = c := by
    intro c
    by_cases same : c = '"'
    · simp [same]
    · simp [same]
  simp only [doubled, mem_flatMap, plain, exists_eq_right']

theorem nul_quote : '\x00' ∈ quote content ↔ '\x00' ∈ content := by
  simp [quote, nul_doubled]

theorem nul_alternatives :
    '\x00' ∈ alternatives strings ↔ ∃ content ∈ strings, '\x00' ∈ content := by
  induction strings with
  | nil => simp [alternatives]
  | cons content rest ih =>
    cases rest with
    | nil => simp [alternatives, nul_quote]
    | cons next rest =>
      rw [alternatives_cons, mem_append, mem_append, ih, nul_quote]
      simp

theorem upToNul_doubled (cut : '\x00' ∈ content) (rest : List Char) :
    upToNul (doubled content ++ rest) = doubled (upToNul content) := by
  induction content with
  | nil => cases cut
  | cons c content ih =>
    by_cases here : c = '\x00'
    · subst here
      rfl
    · have later : '\x00' ∈ content := by
        rcases mem_cons.mp cut with same | later
        · exact absurd same.symm here
        · exact later
      have free : '\x00' ∉ doubled [c] := by
        rw [nul_doubled, mem_singleton]
        exact fun same => here same.symm
      have front : doubled (c :: content) = doubled [c] ++ doubled content := by
        simp [doubled]
      have kept : upToNul (c :: content) = c :: upToNul content := by
        simp [upToNul, here]
      rw [front, append_assoc, upToNul_append free, ih later, kept]
      simp [doubled]

theorem upToNul_quote (cut : '\x00' ∈ content) (rest : List Char) :
    upToNul (quote content ++ rest) = '"' :: doubled (upToNul content) := by
  rw [quote, List.cons_append, List.cons_append, List.append_assoc]
  exact congrArg _ (upToNul_doubled cut _)

theorem read_alternatives (content : List Char) (rest : List (List Char))
    (free : ∀ string ∈ content :: rest, '\x00' ∉ string) :
    read (alternatives (content :: rest)) = .ok (any content rest) := by
  have free' : '\x00' ∉ alternatives (content :: rest) := by
    rw [nul_alternatives]
    rintro ⟨string, mem, cut⟩
    exact free string mem cut
  rw [read, upToNul_free free', lex_alternatives]
  exact parse_alternatives content rest

theorem lex_cut (cut : ∃ string ∈ strings, '\x00' ∈ string) :
    lex .between (upToNul (alternatives strings)) = .error .unterminatedString := by
  have unended : ∀ content, lex .between ('"' :: doubled content) = .error .unterminatedString := by
    intro content
    rw [lex_within (.quoted []) rfl, ← append_nil (doubled content), lex_doubled]
    rfl
  induction strings with
  | nil => simp at cut
  | cons content rest ih =>
    by_cases here : '\x00' ∈ content
    · cases rest with
      | nil =>
        rw [alternatives, map_singleton, intercalate_singleton,
          ← append_nil (quote content), upToNul_quote here]
        exact unended _
      | cons next rest =>
        rw [alternatives_cons, upToNul_quote here]
        exact unended _
    · have later : ∃ string ∈ rest, '\x00' ∈ string := by
        obtain ⟨string, mem, cut⟩ := cut
        rcases mem_cons.mp mem with rfl | mem
        · exact absurd cut here
        · exact ⟨string, mem, cut⟩
      cases rest with
      | nil => simp at later
      | cons next rest =>
        rw [alternatives_cons, upToNul_append (by rwa [nul_quote]), upToNul_append (by decide),
          lex_quote, lex_or, ih later]
        rfl

theorem read_cut (cut : ∃ string ∈ strings, '\x00' ∈ string) :
    read (alternatives strings) = .error .unterminatedString := by
  rw [read, lex_cut cut]
  rfl

end Library.FullText
