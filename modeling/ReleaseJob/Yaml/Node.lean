import ReleaseJob.Yaml.Event
import ReleaseJob.Yaml.Token.Scan

namespace ReleaseJob.Yaml

inductive Flaw
  | malformed
  /-- An alias at this place stands for no node before it. -/
  | unknownAnchor (place : Mark)
  | severalDocuments

inductive Node
  | scalar (tag : Option Tag) (style : Style) (text : String) (start : Mark)
  | seq (tag : Option Tag) (elems : List Node) (start : Mark)
  | map (tag : Option Tag) (entries : List (Node × Node)) (start : Mark)
  /-- The anchored node with this number. -/
  | alias (anchor : Nat) (start : Mark)
  /-- The rest of the text, which is not well formed. -/
  | broken (flaw : Flaw)

def Node.start : Node → Mark
  | .scalar _ _ _ m | .seq _ _ m | .map _ _ m | .alias _ m => m
  | .broken _ => .origin

/-- A node that an alias can stand for, with its number and the number of its first event. -/
structure Anchored where
  anchor : Nat
  start : Nat
  node : Node

structure Frame where
  anchor : Option Nat
  start : Nat
  tag : Option Tag
  isMap : Bool
  place : Mark
  elems : List Node := []
  entries : List (Node × Node) := []
  key : Option Node := none

namespace Frame

def add (f : Frame) (n : Node) : Frame :=
  if f.isMap then
    match f.key with
    | none => { f with key := some n }
    | some k => { f with key := none, entries := (k, n) :: f.entries }
  else { f with elems := n :: f.elems }

/-- A key without its value gets the flaw for it, and the flaw is the next key as well. -/
def breakOff (f : Frame) (flaw : Flaw) : Frame :=
  let b := Node.broken flaw
  if f.isMap then
    let f := if f.key.isSome then f.add b else f
    (f.add b).add b
  else f.add b

def node (f : Frame) : Node :=
  if f.isMap then .map f.tag f.entries.reverse f.place else .seq f.tag f.elems.reverse f.place

end Frame

/-- The document read so far: the collections that are open, the names of the anchors with their
numbers, and the number of the next event. -/
structure Tree where
  frames : List Frame := []
  root : Option Node := none
  names : List (String × Nat) := []
  anchored : List Anchored := []
  count : Nat := 0

namespace Tree

/-- A new anchor has the number of distinct names seen before, also when its own name was one of
them. -/
def name (t : Tree) (anchor : Option String) : Option Nat × Tree :=
  match anchor with
  | none => (none, t)
  | some a =>
    let number := t.names.length
    let names :=
      if t.names.any (·.1 = a) then t.names.map fun e => if e.1 = a then (a, number) else e
      else (a, number) :: t.names
    (some number, { t with names })

def register (t : Tree) (anchor : Option Nat) (start : Nat) (n : Node) : Tree :=
  match anchor with
  | none => t
  | some a => { t with anchored := ⟨a, start, n⟩ :: t.anchored }

def place (t : Tree) (n : Node) : Tree :=
  match t.frames with
  | [] => { t with root := some n }
  | f :: frames => { t with frames := f.add n :: frames }

def leaf (t : Tree) (anchor : Option String) (n : Node) : Tree :=
  let (number, t) := t.name anchor
  (t.register number t.count n).place n

def enter (t : Tree) (p : Props) (isMap : Bool) (place : Mark) : Tree :=
  let (anchor, t) := t.name p.anchor
  { t with frames := { anchor, start := t.count, tag := p.tag, isMap, place } :: t.frames }

def leave (t : Tree) : Tree :=
  match t.frames with
  | [] => t
  | f :: frames => ({ t with frames }.register f.anchor f.start f.node).place f.node

/-- Puts the flaw after what every open collection holds, and closes them all. -/
def breakOff (t : Tree) (flaw : Flaw) : Tree :=
  t.frames.foldl (fun t _ => { t with frames := t.frames.modifyHead (·.breakOff flaw) }.leave) t

end Tree

/-- The first document of a text; `size` counts its events. Where the text stops being well formed,
the tree says so and goes no further. -/
structure Document where
  root : Node
  anchored : List Anchored
  size : Nat
  flaw : Option Flaw

namespace Document

def void (m : Mark) : Node := .scalar none .plain "" m

def broken (t : Tree) (flaw : Flaw) : Document :=
  let closed := t.breakOff flaw
  ⟨closed.root.getD (.broken flaw), closed.anchored, t.count, some flaw⟩

/-- Reads a document to its end, after which the stream must end. An alias needs an anchor before
it. -/
def build (t : Tree) : List Event → Document
  | [] => broken t .malformed
  | e :: rest =>
    let next (t : Tree) := { t with count := t.count + 1 }
    match e with
    | .documentStart => build t rest
    | .documentEnd =>
      let (m, flaw) := match rest with
        | [.streamEnd m] => (m, none)
        | _ => (.origin, some .severalDocuments)
      ⟨t.root.getD (void m), t.anchored, t.count, flaw⟩
    | .streamEnd _ => broken t .malformed
    | .alias name m =>
      match t.names.find? (·.1 = name) with
      | some (_, number) => build (next (t.place (.alias number m))) rest
      | none => broken t (.unknownAnchor m)
    | .scalar p style text m => build (next (t.leaf p.anchor (.scalar p.tag style text m))) rest
    | .seqStart p m => build (next (t.enter p false m)) rest
    | .mapStart p m => build (next (t.enter p true m)) rest
    | .seqEnd | .mapEnd => build (next t.leave) rest

/-- A stream without a document counts as one that holds an empty scalar at its end. -/
def ofEvents : List Event → Document
  | [.streamEnd m] => ⟨void m, [], 1, none⟩
  | events => build {} events

def ofText (text : String) : Document := ofEvents (Event.ofTokens (Token.scan text))

/-- The node that an alias stands for: of those with its number, the one that starts last. -/
def target (d : Document) (anchor : Nat) : Node :=
  let found := d.anchored.foldl (fun best a =>
    if a.anchor ≠ anchor then best
    else match best with
      | some b => if b.start < a.start then some a else best
      | none => some a) (none : Option Anchored)
  found.elim (void .origin) (·.node)

end Document

end ReleaseJob.Yaml
