import ReleaseJob.Yaml.Token.Block
import ReleaseJob.Yaml.Token.Label

namespace ReleaseJob.Yaml

/-- A place where a key may start: its token is held back until a colon follows it on its line,
within 1024 octets, or can no longer follow. Where the block grammar allows nothing else, the key is
required. -/
structure KeyMark where
  required : Bool
  token : Nat
  index : Nat
  line : Nat
  column : Nat

/-- `keys` holds one place per flow collection that is open, and one for the block around them, the
innermost first. `taken` counts the tokens given out and `queue` holds those that are not. -/
structure Lexer where
  cursor : Cursor
  keys : List (Option KeyMark) := [none]
  indent : Int := -1
  outer : List Int := []
  keyAllowed : Bool := true
  queue : List Placed := []
  taken : Nat := 0
  ended : Bool := false

namespace Lexer

def inFlow (l : Lexer) : Bool := 1 < l.keys.length

def push (l : Lexer) (start : Cursor) (t : Token) : Lexer :=
  { l with queue := l.queue ++ [⟨t, start.mark, l.cursor.mark⟩] }

/-- Puts a token that takes no room in front of the one with this number. -/
def insertAt (l : Lexer) (number : Nat) (m : Mark) (t : Token) : Lexer :=
  let n := number - l.taken
  { l with queue := l.queue.take n ++ ⟨t, m, m⟩ :: l.queue.drop n }

def dropKey (l : Lexer) : Option Lexer :=
  match l.keys with
  | some k :: rest => if k.required then none else some { l with keys := none :: rest }
  | _ => some l

def markKey (l : Lexer) : Option Lexer := do
  if l.keyAllowed then
    let required := !l.inFlow && l.indent = l.cursor.column
    let l ← l.dropKey
    let mark : KeyMark :=
      ⟨required, l.taken + l.queue.length, l.cursor.index, l.cursor.line, l.cursor.column⟩
    return { l with keys := some mark :: l.keys.drop 1 }
  else return l

def dropStaleKeys (l : Lexer) : Option Lexer := do
  let keys ← l.keys.mapM fun
    | some k =>
      if k.line < l.cursor.line || k.index + 1024 < l.cursor.index then
        if k.required then none else some none
      else some (some k)
    | none => some none
  return { l with keys }

def closeBlocks (m : Mark) (column : Int) (queue : List Placed) (indent : Int) :
    List Int → List Placed × Int × List Int
  | [] => (queue, indent, [])
  | o :: outer =>
    if column < indent then closeBlocks m column (queue ++ [⟨.blockEnd, m, m⟩]) o outer
    else (queue, indent, o :: outer)

def unindent (l : Lexer) (column : Int) : Lexer :=
  if l.inFlow then l
  else
    let (queue, indent, outer) := closeBlocks l.cursor.mark column l.queue l.indent l.outer
    { l with queue, indent, outer }

def openBlock (l : Lexer) (m : Mark) (number : Nat) (t : Token) : Lexer :=
  if l.inFlow || (m.column : Int) ≤ l.indent then l
  else { l with indent := m.column, outer := l.indent :: l.outer }.insertAt number m t

def nextNumber (l : Lexer) : Nat := l.taken + l.queue.length

/-- Past blanks, comments and line breaks, and a byte order mark where a line starts. In a block a line
break allows a new key, and a tab may not stand where a key may. -/
def skipGap (inFlow : Bool) (comment keyAllowed : Bool) (index line column : Nat) :
    List Char → Bool × Cursor
  | [] => (keyAllowed, ⟨[], index, line, column⟩)
  | c :: rest =>
    if isBreak c then
      if c = '\r' && rest.head? = some '\n' then
        skipGap inFlow comment keyAllowed (index + 1) line column rest
      else skipGap inFlow false (keyAllowed || !inFlow) (index + c.utf8Size) (line + 1) 0 rest
    else if comment || c = ' ' || (c = '\t' && (inFlow || !keyAllowed)) ||
        (c = byteOrderMark && column = 0) then
      skipGap inFlow comment keyAllowed (index + c.utf8Size) line (column + 1) rest
    else if c = '#' then
      skipGap inFlow true keyAllowed (index + 1) line (column + 1) rest
    else (keyAllowed, ⟨c :: rest, index, line, column⟩)

def advance (l : Lexer) (n : Nat) : Lexer := { l with cursor := l.cursor.skip n }

def fetchEnd (l : Lexer) : Option Lexer := do
  let k := l.cursor
  let l := { l with cursor := if k.column = 0 then k else { k with column := 0, line := k.line + 1 } }
  let l ← (l.unindent (-1)).dropKey
  return { l with keyAllowed := false, ended := true }.push l.cursor .streamEnd

def fetchDirective (l : Lexer) : Option Lexer := do
  let l ← (l.unindent (-1)).dropKey
  let (t, cursor) ← directive l.cursor
  return { l with keyAllowed := false, cursor }.push l.cursor t

def fetchDocumentMark (l : Lexer) (t : Token) : Option Lexer := do
  let l ← (l.unindent (-1)).dropKey
  return ({ l with keyAllowed := false }.advance 3).push l.cursor t

def fetchFlowStart (l : Lexer) (t : Token) : Option Lexer := do
  let l ← l.markKey
  return ({ l with keys := none :: l.keys, keyAllowed := true }.advance 1).push l.cursor t

def fetchFlowEnd (l : Lexer) (t : Token) : Option Lexer := do
  let l ← l.dropKey
  let keys := if l.inFlow then l.keys.drop 1 else l.keys
  return ({ l with keys, keyAllowed := false }.advance 1).push l.cursor t

def fetchFlowEntry (l : Lexer) : Option Lexer := do
  let l ← l.dropKey
  return ({ l with keyAllowed := true }.advance 1).push l.cursor .flowEntry

/-- A hyphen in a flow is left to the grammar. -/
def fetchEntry (l : Lexer) : Option Lexer := do
  if !l.inFlow && !l.keyAllowed then failure
  let l ← (l.openBlock l.cursor.mark l.nextNumber .blockSeq).dropKey
  return ({ l with keyAllowed := true }.advance 1).push l.cursor .entry

def fetchKey (l : Lexer) : Option Lexer := do
  if !l.inFlow && !l.keyAllowed then failure
  let l ← (l.openBlock l.cursor.mark l.nextNumber .blockMap).dropKey
  return ({ l with keyAllowed := !l.inFlow }.advance 1).push l.cursor .key

def fetchValue (l : Lexer) : Option Lexer :=
  match l.keys with
  | some k :: rest =>
    let m : Mark := ⟨k.line, k.column⟩
    let l := (l.insertAt k.token m .key).openBlock m k.token .blockMap
    some (({ l with keys := none :: rest, keyAllowed := false }.advance 1).push l.cursor .value)
  | _ =>
    if !l.inFlow && !l.keyAllowed then none
    else
      let l := l.openBlock l.cursor.mark l.nextNumber .blockMap
      some (({ l with keyAllowed := !l.inFlow }.advance 1).push l.cursor .value)

def fetchLabel (l : Lexer) (read : Cursor → Option (Token × Cursor)) : Option Lexer := do
  let l ← l.markKey
  let (t, cursor) ← read l.cursor
  return { l with keyAllowed := false, cursor }.push l.cursor t

def fetchBlockScalar (l : Lexer) (style : Style) : Option Lexer := do
  let l ← l.dropKey
  let (text, cursor) ← blockScalar (style = .folded) l.indent (l.cursor.skip 1)
  return { l with keyAllowed := true, cursor }.push l.cursor (.scalar style text)

def fetchQuoted (l : Lexer) (style : Style) : Option Lexer := do
  let l ← l.markKey
  let k := l.cursor.skip 1
  let (text, cursor) ← quotedScalar (style = .double) {} true k.index k.line k.column k.rest
  return { l with keyAllowed := false, cursor }.push l.cursor (.scalar style text)

def fetchPlain (l : Lexer) : Option Lexer := do
  let l ← l.markKey
  let k := l.cursor
  let (text, broken, cursor) ←
    plainScalar l.inFlow (l.indent + 1).toNat {} false k.index k.line k.column k.rest
  return { l with keyAllowed := broken, cursor }.push l.cursor (.scalar .plain text)

def indicators : List Char :=
  ['-', '?', ':', ',', '[', ']', '\x7b', '\x7d', '#', '&', '*', '!', '|', '>', '\'', '"', '%', '@', '\x60']

def startsPlain (inFlow : Bool) (c : Char) (rest : List Char) : Bool :=
  !(isBlank c || indicators.contains c) ||
    (c = '-' && !(rest.head?.map isSpace).getD true) ||
    (!inFlow && (c = '?' || c = ':') && !Cursor.endsWord rest)

def fetch (l : Lexer) : Option Lexer := do
  let k := l.cursor
  let (keyAllowed, cursor) := skipGap l.inFlow false l.keyAllowed k.index k.line k.column k.rest
  let l ← { l with keyAllowed, cursor }.dropStaleKeys
  let l := l.unindent l.cursor.column
  match l.cursor.rest with
  | [] => l.fetchEnd
  | c :: rest =>
    let mark := Cursor.atDocumentMark l.cursor.column (c :: rest)
    if l.cursor.column = 0 && c = '%' then l.fetchDirective
    else if mark && c = '-' then l.fetchDocumentMark .documentStart
    else if mark then l.fetchDocumentMark .documentEnd
    else if c = '[' then l.fetchFlowStart .flowSeq
    else if c = '\x7b' then l.fetchFlowStart .flowMap
    else if c = ']' then l.fetchFlowEnd .flowSeqEnd
    else if c = '\x7d' then l.fetchFlowEnd .flowMapEnd
    else if c = ',' then l.fetchFlowEntry
    else if c = '-' && Cursor.endsWord rest then l.fetchEntry
    else if c = '?' && (l.inFlow || Cursor.endsWord rest) then l.fetchKey
    else if c = ':' && (l.inFlow || Cursor.endsWord rest) then l.fetchValue
    else if c = '*' then l.fetchLabel fun k => (anchorName (k.skip 1)).map fun (n, k) => (.alias n, k)
    else if c = '&' then l.fetchLabel fun k => (anchorName (k.skip 1)).map fun (n, k) => (.anchor n, k)
    else if c = '!' then l.fetchLabel (tagToken l.inFlow)
    else if c = '|' && !l.inFlow then l.fetchBlockScalar .literal
    else if c = '>' && !l.inFlow then l.fetchBlockScalar .folded
    else if c = '\'' then l.fetchQuoted .single
    else if c = '"' then l.fetchQuoted .double
    else if startsPlain l.inFlow c rest then l.fetchPlain
    else none

/-- What there is left to do: the text, and its end. -/
def weight (l : Lexer) : Nat := l.cursor.rest.length + (if l.ended then 0 else 1)

def unsettled (l : Lexer) : Bool :=
  l.queue.isEmpty || l.keys.any fun k => k.any (·.token = l.taken)

/-- Gives out the tokens of the queue, up to the first that may still turn out to be a key. There the
next piece of the text is cut, and `more` goes on from it. -/
def drain (more : Lexer → List Placed) (l : Lexer) : List Placed → List Placed
  | [] => if l.ended then [] else advance { l with queue := [] }
  | t :: queue =>
    match { l with queue := t :: queue }.dropStaleKeys with
    | none => []
    | some settled =>
      if !l.ended && settled.unsettled then advance settled
      else t :: drain more { l with taken := l.taken + 1, keys := settled.keys } queue
where
  advance (settled : Lexer) : List Placed :=
    match settled.fetch with
    | none => []
    | some next => if next.weight < settled.weight then more next else []

def run : Nat → Lexer → List Placed
  | 0, _ => []
  | pieces + 1, l => l.drain (run pieces) l.queue

end Lexer

/-- The tokens of a text; the last is the end of the stream if the whole text can be cut. A text
that holds a character outside the allowed ones has no tokens. -/
def Token.scan (text : String) : List Placed :=
  let cs := text.toList
  let l : Lexer := { cursor := .start cs }
  -- every piece that is cut leaves less to do
  if cs.all isAllowed then l.run (l.weight + 1) else []

end ReleaseJob.Yaml
