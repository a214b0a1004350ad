import DataQuality.Number.Text
import DataQuality.Pattern.Class

/-!
# Reading regular expressions

The notation has groups, alternatives, bracketed classes that may nest, greedy and lazy
repetitions and inline flags. It has neither look-around nor back-references. A text outside the
notation is not a pattern.
-/

namespace DataQuality.Pattern

open Text (Read Left)

/-- The largest count of a repetition. -/
def maxCount : Nat := Nat.pow 2 32 - 1

/-- The count that a text stands for, blanks around it left out. -/
def count? (cs : List Char) : Option Nat :=
  let digits := Text.trimChars cs
  if digits.isEmpty || !digits.all Text.isDigit then none
  else some (Number.digitsValue digits) |>.filter (· ≤ maxCount)

/-- The bounds of a counted repetition. -/
def bounds? (body : List Char) : Option (Nat × Option Nat) :=
  match Text.cut ',' body with
  | none => (count? body).map fun n ↦ (n, some n)
  | some (least, most) => do
    let least ← count? least
    if most.isEmpty then pure (least, none)
    else
      let most ← count? most
      guard (least ≤ most)
      pure (least, some most)

/-- Reads a question mark, if there is one. -/
def dropLazyMark (cs : List Char) : Left cs :=
  match cs with
  | '?' :: rest => (Left.all rest).behind
  | cs => .all cs

/-- Bounds with the mark behind them that makes a repetition lazy. -/
def withLazyMark {α : Type} {cs : List Char} (r : Read α cs) : Read α cs :=
  ⟨r.value, (dropLazyMark r.rest).val, Nat.lt_of_le_of_lt (dropLazyMark r.rest).property r.shorter⟩

/-- What a reader got, with what does not count behind it. -/
def withSkipped {α : Type} {cs : List Char} (m : Mode) (r : Read α cs) : Read α cs :=
  ⟨r.value, m.skip r.rest, Nat.lt_of_le_of_lt (m.length_skip_le r.rest) r.shorter⟩

/-- Reads the sign of a repetition, with the mark that makes it lazy. -/
def readRepetition? (m : Mode) (cs : List Char) : Option (Read (Nat × Option Nat) cs) :=
  match cs with
  | '*' :: _ => some (withLazyMark (.first (0, none)))
  | '+' :: _ => some (withLazyMark (.first (1, none)))
  | '?' :: _ => some (withLazyMark (.first (0, some 1)))
  | cs =>
    (readBraced? m cs).bind fun r ↦
      (bounds? r.value).map fun bounds ↦ withLazyMark (withSkipped m (r.map fun _ ↦ bounds))

/-- Whether the character begins a repetition. -/
def isRepetitionSign (c : Char) : Bool := c == '*' || c == '+' || c == '?' || c == '\x7b'

/-- How a group begins. -/
inductive GroupHead where
  | plain
  | named (name : List Char)
  | flags (text : List Char)

/-- The letters of inline flags. -/
def flagLetters : List Char := ['i', 'm', 's', 'U', 'u', 'x', 'R']

/-- Whether a text sets flags: no letter twice, at most one minus sign, a letter behind it. -/
def areFlags (cs : List Char) : Bool :=
  cs.all (fun c ↦ flagLetters.contains c || c == '-') && cs.Nodup && cs.getLast? != some '-'

/-- Whether a text can be the name of a group. -/
def isGroupName : List Char → Bool
  | [] => false
  | c :: rest =>
    (c == '_' || Text.isLetter c) &&
      rest.all fun d ↦ d == '_' || d == '.' || d == '[' || d == ']' || Text.isLetterOrNumeric d

/-- Reads the name of a group up to the bracket behind it. -/
def readGroupName? (cs : List Char) : Option (Read (List Char) cs) :=
  match h : Text.cut '>' cs with
  | some (name, rest) =>
    if isGroupName name then some ⟨name, rest, Text.length_lt_of_cut h⟩ else none
  | none => none

/-- Reads the flags of a group; `true` says that the group is closed already. -/
def readFlags? (cs : List Char) : Option (Read (GroupHead × Bool) cs) :=
  let text := cs.takeWhile fun c ↦ c != ':' && c != ')'
  match h : cs.dropWhile fun c ↦ c != ':' && c != ')' with
  | c :: rest =>
    if areFlags text && (c == ':' || !text.isEmpty) then
      some ⟨(if text.isEmpty then .plain else .flags text, c == ')'), rest,
        Text.length_lt_of_dropWhile h⟩
    else none
  | [] => none

/-- Reads the head of a group behind its parenthesis and question mark; `true` says that the group
is closed already. -/
def readGroupHead? (cs : List Char) : Option (Read (GroupHead × Bool) cs) :=
  match cs with
  | '<' :: '=' :: _ => none
  | '<' :: '!' :: _ => none
  | '<' :: rest =>
    (readGroupName? rest).map fun r ↦ (r.map fun n ↦ (GroupHead.named n, false)).behind
  | 'P' :: '<' :: rest =>
    (readGroupName? rest).map fun r ↦ (r.map fun n ↦ (GroupHead.named n, false)).behind.behind
  | cs => readFlags? cs

/-- A group that is being read: its flags, how the next item is read, the finished alternatives and
the items of the current one, each latest first. -/
structure OpenGroup where
  flags : List Char
  mode : Mode
  choices : List Pattern
  items : List Pattern

namespace OpenGroup

/-- A group with nothing in it; `m` is how the group around it is read. -/
def begin (m : Mode) (flags : List Char) : OpenGroup := ⟨flags, m.withFlags flags, [], []⟩

/-- The group with one more item. -/
def add (g : OpenGroup) (p : Pattern) : OpenGroup := { g with items := p :: g.items }

/-- The group with flags for the items to come. -/
def addFlags (g : OpenGroup) (text : List Char) : OpenGroup :=
  { g.add (.flags (String.ofList text)) with mode := g.mode.withFlags text }

/-- The group as it goes on behind a bar. -/
def alternate (g : OpenGroup) : OpenGroup :=
  { g with choices := ofItems g.items.reverse :: g.choices, items := [] }

/-- The pattern of what is in the finished group. -/
def content (g : OpenGroup) : Pattern := ofChoices g.alternate.choices.reverse

/-- The pattern of the finished group. -/
def close (g : OpenGroup) : Pattern := .group (String.ofList g.flags) g.content

/-- The group with its last item repeated; flags cannot be, nor can nothing. -/
def repeatLast? (g : OpenGroup) (bounds : Nat × Option Nat) : Option OpenGroup :=
  match g.items with
  | [] => none
  | .flags _ :: _ => none
  | p :: items => some { g with items := .repeated p bounds.1 bounds.2 :: items }

end OpenGroup

/-- The pattern of a character that is no sign of the notation, or a sign of one character. Any byte
would not be text, so there is no such sign without Unicode. -/
def plainItem? (m : Mode) (c : Char) : Option Pattern :=
  if c = '.' then if m.unicode then some .any else none
  else if c = '^' ∨ c = '$' then some (.assertion (String.singleton c))
  else some (.char c)

/-- Reads an item that is neither a group nor a repetition. -/
def readItem? (m : Mode) (c : Char) (rest : List Char) : Option (Read Pattern (c :: rest)) :=
  if c = '[' then (readBracketed? m rest).map fun r ↦ (r.map Pattern.oneOf).behind
  else if c = '\\' then
    (readEscape? m rest).bind fun r ↦
      (r.value.toPattern? m).map fun p ↦ (r.map fun _ ↦ p).behind
  else (plainItem? m c).map .first

/-- Reads a whole pattern. `outer` holds the groups around the current one, innermost first, and
`names` the names of groups met so far. -/
def readPattern? (outer : List OpenGroup) (current : OpenGroup) (names : List (List Char))
    (cs : List Char) : Option Pattern :=
  let m := current.mode
  match h : m.skip cs with
  | [] => if outer.isEmpty then some current.content else none
  | c :: rest =>
    have hlt := Mode.length_lt_of_skip h
    if c = '(' then
      match hs : m.skip rest with
      | '?' :: inside =>
        have hin := Mode.length_lt_of_skip hs
        (readGroupHead? inside).bind fun head ↦
          have : head.rest.length < cs.length :=
            Nat.lt_trans head.shorter (Nat.lt_trans hin hlt)
          match head.value with
          | (.flags text, true) => readPattern? outer (current.addFlags text) names head.rest
          | (.flags text, false) =>
            readPattern? (current :: outer) (.begin m text) names head.rest
          | (.named name, _) =>
            if names.contains name then none
            else readPattern? (current :: outer) (.begin m []) (name :: names) head.rest
          | (.plain, _) => readPattern? (current :: outer) (.begin m []) names head.rest
      | _ => readPattern? (current :: outer) (.begin m []) names rest
    else if c = ')' then
      match outer with
      | [] => none
      | parent :: outer => readPattern? outer (parent.add current.close) names rest
    else if c = '|' then readPattern? outer current.alternate names rest
    else if isRepetitionSign c then
      (readRepetition? m (c :: rest)).bind fun r ↦
        have : r.rest.length < cs.length := Nat.lt_of_lt_of_le r.shorter hlt
        (current.repeatLast? r.value).bind fun current ↦ readPattern? outer current names r.rest
    else
      (readItem? m c rest).bind fun r ↦
        have : r.rest.length < cs.length := Nat.lt_of_lt_of_le r.shorter hlt
        readPattern? outer (current.add r.value) names r.rest
termination_by cs.length
decreasing_by all_goals omega

/-- Reads a text as a pattern. -/
def parse? (source : String) : Option Pattern := readPattern? [] (.begin {} []) [] source.toList

end DataQuality.Pattern
