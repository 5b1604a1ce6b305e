import ReleaseJob.Tag.Size

namespace ReleaseJob

inductive PatternError
  | empty
  | nothingToRepeat (quantifier : Char)
  | unclosedClass
  /-- A class text that is no class, or an item nested too deep. -/
  | malformed
  /-- An automaton that takes too much memory. -/
  | tooLarge

def PatternError.message : PatternError → String
  | empty => "pattern is empty"
  | nothingToRepeat q => s!"'{q}' has nothing to repeat"
  | unclosedClass => "unclosed character class"
  | malformed => "regex parse error:"
  | tooLarge => "Compiled regex exceeds size limit"

structure TagPattern where
  glob : String
  negated : Bool
  items : List Tag.Item

namespace TagPattern

/-- Items may nest this deep, the list that holds them counted as one level. -/
def nestLimit : Nat := 250

/-- The automaton of a filter may take ten mebibytes. -/
def sizeLimit : Nat := 10 * Nat.pow 2 20

def parseBody (body : List Char) : Except PatternError (List Tag.Item) :=
  match body with
  | [] => .error .empty
  | c :: _ =>
    if c = '?' || c = '+' then .error (.nothingToRepeat c)
    else
      match Tag.Token.scan body with
      | none => .error .unclosedClass
      | some tokens =>
        match Tag.Item.ofTokens? tokens with
        | none => .error .malformed
        | some items =>
          if !items.all (fun i => 1 + i.depth ≤ nestLimit) then .error .malformed
          else if sizeLimit < Tag.size items then .error .tooLarge
          else .ok items

def parse (glob : String) : Except PatternError TagPattern :=
  match glob.toList with
  | '!' :: body => (parseBody body).map (⟨glob, true, ·⟩)
  | body => (parseBody body).map (⟨glob, false, ·⟩)

def accepts (p : TagPattern) (tag : String) : Bool :=
  Tag.matchItems p.items tag.toList

end TagPattern

end ReleaseJob
