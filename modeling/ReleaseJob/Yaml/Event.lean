import ReleaseJob.Yaml.Token

namespace ReleaseJob.Yaml

structure Props where
  anchor : Option String := none
  tag : Option Tag := none

inductive Event
  | documentStart
  | documentEnd
  | alias (name : String) (place : Mark)
  | scalar (props : Props) (style : Style) (text : String) (start : Mark)
  | seqStart (props : Props) (start : Mark)
  | seqEnd
  | mapStart (props : Props) (start : Mark)
  | mapEnd
  | streamEnd (place : Mark)

namespace Event

def absent (m : Mark) : Event := .scalar {} .plain "" m

inductive Goal
  | bareDocument
  | document
  | content
  | documentEnd
  | blockNode
  | blockSeq (first : Bool)
  /-- A sequence at the column of the mapping around it. -/
  | flatSeq
  | blockKey (first : Bool)
  | blockValue
  | flowSeq (first : Bool)
  | pairKey
  | pairValue
  | pairEnd
  | flowKey (first : Bool)
  | flowValue
  | flowNoValue

structure Grammar where
  goal : Goal
  pending : List Goal := []
  tokens : List Placed
  shorthands : List (String × Tag) := []

namespace Grammar

def next (g : Grammar) : Option Token := g.tokens.head?.map (·.token)

def here (g : Grammar) : Mark := (g.tokens.head?.map (·.start)).getD .origin

def past (g : Grammar) : Mark := (g.tokens.head?.map (·.stop)).getD .origin

def pass (g : Grammar) : Grammar := { g with tokens := g.tokens.drop 1 }

def resume (g : Grammar) : Grammar :=
  match g.pending with
  | [] => g
  | goal :: pending => { g with goal, pending }

def await (g : Grammar) (goal : Goal) : Grammar := { g with pending := goal :: g.pending }

def aim (g : Grammar) (goal : Goal) : Grammar := { g with goal }

def defaultShorthands : List (String × Tag) := [("!", .unnamed), ("!!", Tag.core "")]

def fullTag? (g : Grammar) (handle : String) (suffix : Tag) : Option Tag :=
  if handle.isEmpty then some suffix
  else (g.shorthands ++ defaultShorthands).find? (·.1 = handle) |>.map (·.2 ++ suffix)

/-- An anchor and a tag, each at most once, in either order. -/
def props (g : Grammar) : Option (Props × Grammar) :=
  match g.tokens with
  | ⟨.anchor a, _, _⟩ :: ⟨.tag h s, _, _⟩ :: tokens => do
    return ({ anchor := a, tag := ← g.fullTag? h s }, { g with tokens })
  | ⟨.tag h s, _, _⟩ :: ⟨.anchor a, _, _⟩ :: tokens => do
    return ({ anchor := a, tag := ← g.fullTag? h s }, { g with tokens })
  | ⟨.anchor a, _, _⟩ :: tokens => some ({ anchor := a }, { g with tokens })
  | ⟨.tag h s, _, _⟩ :: tokens => do return ({ tag := ← g.fullTag? h s }, { g with tokens })
  | _ => some ({}, g)

def node (g : Grammar) (block flat : Bool) : Option (Event × Grammar) := do
  if let some (.alias name) := g.next then return (.alias name g.here, g.pass.resume)
  let m := g.here
  let (p, g) ← g.props
  match ← g.next with
  | .entry => if flat then some (.seqStart p m, g.aim .flatSeq) else bare p m g
  | .scalar style text => some (.scalar p style text m, g.pass.resume)
  | .flowSeq => some (.seqStart p m, g.aim (.flowSeq true))
  | .flowMap => some (.mapStart p m, g.aim (.flowKey true))
  | .blockSeq => if block then some (.seqStart p m, g.aim (.blockSeq true)) else bare p m g
  | .blockMap => if block then some (.mapStart p m, g.aim (.blockKey true)) else bare p m g
  | _ => bare p m g
where
  /-- A label may stand for a node alone. -/
  bare (p : Props) (m : Mark) (g : Grammar) : Option (Event × Grammar) :=
    if p.anchor.isSome || p.tag.isSome then some (.scalar p .plain "" m, g.resume) else none

/-- The node that `goal` waits for, unless one of the tokens that show it is absent comes first. In
a block, what is absent is right after its mark, and in a flow right before the next one. -/
def nodeUnless (g : Grammar) (absentBefore : List Token) (goal : Goal) (block flat : Bool) :
    Option (Event × Grammar) := do
  let m := g.past
  let g := g.pass
  let t ← g.next
  if absentBefore.contains t then return (absent (if block then m else g.here), g.aim goal)
  else (g.await goal).node block flat

/-- The directives before a document; at most one version, 1.1 or 1.2, and no shorthand twice. -/
def directives (seenVersion : Bool) (shorthands : List (String × Tag)) :
    List Placed → Option (List (String × Tag) × List Placed)
  | ⟨.version major minor, _, _⟩ :: rest =>
    if seenVersion || major ≠ 1 || (minor ≠ 1 && minor ≠ 2) then none
    else directives true shorthands rest
  | ⟨.tagShorthand handle stem, _, _⟩ :: rest =>
    if shorthands.any (·.1 = handle) then none
    else directives seenVersion ((handle, stem) :: shorthands) rest
  | rest => some (shorthands, rest)

def isDocumentToken : Token → Bool
  | .version .. | .tagShorthand .. | .documentStart | .documentEnd | .streamEnd => true
  | _ => false

def markedDocument (g : Grammar) : Option (Event × Grammar) := do
  if g.next = some .streamEnd then return (.streamEnd g.here, g.pass)
  let (shorthands, tokens) ← directives false [] g.tokens
  if tokens.head?.map (·.token) ≠ some .documentStart then failure
  let g := { g with shorthands, tokens }
  return (.documentStart, (g.pass.await .documentEnd).aim .content)

def afterComma (g : Grammar) (first : Bool) (close : Token) : Option Grammar := do
  let t ← g.next
  if first then some g.pass
  else if t = close then some g
  else if t = .flowEntry then some g.pass
  else none

def flowSeqEntry (g : Grammar) (first : Bool) : Option (Event × Grammar) := do
  let g ← g.afterComma first .flowSeqEnd
  match ← g.next with
  | .flowSeqEnd => some (.seqEnd, g.pass.resume)
  | .key => some (.mapStart {} g.here, g.pass.aim .pairKey)
  | _ => (g.await (.flowSeq false)).node false false

def flowMapEntry (g : Grammar) (first : Bool) : Option (Event × Grammar) := do
  let g ← g.afterComma first .flowMapEnd
  match ← g.next with
  | .flowMapEnd => some (.mapEnd, g.pass.resume)
  | .key => g.nodeUnless [.value, .flowEntry, .flowMapEnd] .flowValue false false
  | _ => (g.await .flowNoValue).node false false

/-- The next event. A pair in a flow sequence whose key is absent passes over the token that shows
it. -/
def step (g : Grammar) : Option (Event × Grammar) := do
  let t ← g.next
  match g.goal with
  | .bareDocument =>
    if t = .documentEnd || !isDocumentToken t then
      return (.documentStart, (g.await .documentEnd).aim .blockNode)
    else g.markedDocument
  | .document =>
    let tokens := g.tokens.dropWhile (·.token = .documentEnd)
    Grammar.markedDocument { g with tokens }
  | .content => if isDocumentToken t then some (absent g.here, g.resume) else g.node true false
  | .blockNode => g.node true false
  | .documentEnd =>
    let g := if t = .documentEnd then g.pass else g
    some (.documentEnd, { g with goal := .document, shorthands := [] })
  | .blockSeq first =>
    let g := if first then g.pass else g
    match ← g.next with
    | .entry => g.nodeUnless [.entry, .blockEnd] (.blockSeq false) true false
    | .blockEnd => some (.seqEnd, g.pass.resume)
    | _ => none
  | .flatSeq =>
    if t = .entry then g.nodeUnless [.entry, .key, .value, .blockEnd] .flatSeq true false
    else some (.seqEnd, g.resume)
  | .blockKey first =>
    let g := if first then g.pass else g
    match ← g.next with
    | .key => g.nodeUnless [.key, .value, .blockEnd] .blockValue true true
    | .blockEnd => some (.mapEnd, g.pass.resume)
    | _ => none
  | .blockValue =>
    if t = .value then g.nodeUnless [.key, .value, .blockEnd] (.blockKey false) true true
    else some (absent g.here, g.aim (.blockKey false))
  | .flowSeq first => g.flowSeqEntry first
  | .pairKey =>
    if t = .value || t = .flowEntry || t = .flowSeqEnd then
      some (absent g.past, g.pass.aim .pairValue)
    else (g.await .pairValue).node false false
  | .pairValue =>
    if t = .value then g.nodeUnless [.flowEntry, .flowSeqEnd] .pairEnd false false
    else some (absent g.here, g.aim .pairEnd)
  | .pairEnd => some (.mapEnd, g.aim (.flowSeq false))
  | .flowKey first => g.flowMapEntry first
  | .flowValue =>
    if t = .value then g.nodeUnless [.flowEntry, .flowMapEnd] (.flowKey false) false false
    else some (absent g.here, g.aim (.flowKey false))
  | .flowNoValue => some (absent g.here, g.aim (.flowKey false))

def run : Nat → Grammar → List Event
  | 0, _ => []
  | fuel + 1, g =>
    match g.step with
    | none => []
    | some (.streamEnd m, _) => [.streamEnd m]
    | some (e, g) => e :: run fuel g

end Grammar

/-- The events of a token list, up to the place where it leaves the grammar; the last is the end of
the stream if it never does. No token gives rise to more than eight events. -/
def ofTokens (tokens : List Placed) : List Event :=
  Grammar.run (8 * tokens.length + 8) { goal := .bareDocument, tokens }

end Event

end ReleaseJob.Yaml
