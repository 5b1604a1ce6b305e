namespace ReleaseJob.Text

/-- The Unicode property White_Space. -/
def isBlank (c : Char) : Bool :=
  let n := c.toNat
  (9 ≤ n && n ≤ 13) || n = 0x20 || n = 0x85 || n = 0xA0 || n = 0x1680 ||
    (0x2000 ≤ n && n ≤ 0x200A) || n = 0x2028 || n = 0x2029 || n = 0x202F || n = 0x205F || n = 0x3000

def trim (s : String) : String :=
  let body := s.toList.dropWhile isBlank
  String.ofList (body.reverse.dropWhile isBlank).reverse

/-- The words of a text; `word` holds, in reverse, what is read of the current one. -/
def wordsFrom (word : List Char) : List Char → List String
  | [] => if word.isEmpty then [] else [String.ofList word.reverse]
  | c :: rest =>
    if isBlank c then
      if word.isEmpty then wordsFrom [] rest
      else String.ofList word.reverse :: wordsFrom [] rest
    else wordsFrom (c :: word) rest

def words (s : String) : List String := wordsFrom [] s.toList

theorem wordsFrom_eq_nil_iff {word text : List Char} :
    wordsFrom word text = [] ↔ word = [] ∧ ∀ c ∈ text, isBlank c = true := by
  induction text generalizing word with
  | nil => cases word <;> simp [wordsFrom]
  | cons c rest ih =>
    cases hc : isBlank c <;> cases word <;> simp [wordsFrom, hc, ih]

theorem words_eq_nil_iff {s : String} : words s = [] ↔ ∀ c ∈ s.toList, isBlank c = true := by
  simp [words, wordsFrom_eq_nil_iff]

end ReleaseJob.Text
