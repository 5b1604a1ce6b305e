import ReleaseJob.Proofs.Slots
import ReleaseJob.Tag.Pattern

namespace ReleaseJob.Proofs

open Computability Tag

/-- What the text of a class is written from. -/
inductive ClassPart
  | one (c : Char)
  | range (low high : Char)

namespace ClassPart

/-- Letters and digits of ASCII, and ascending ranges of them. -/
def Plain : ClassPart → Prop
  | one c => c.isAlphanum = true
  | range low high => low.isAlphanum = true ∧ high.isAlphanum = true ∧ low ≤ high

def text : ClassPart → List Char
  | one c => [c]
  | range low high => [low, '-', high]

def Holds (c : Char) : ClassPart → Prop
  | one d => c = d
  | range low high => low ≤ c ∧ c ≤ high

end ClassPart

inductive Mark
  | literal (c : Char)
  | segment
  | anything
  | oneOf (parts : List ClassPart)
  | optional
  | repeated

/-- Two stars that stand together are one mark. -/
inductive Reads : List Char → List Mark → Prop
  | nil : Reads [] []
  | literal {c : Char} {text : List Char} {marks : List Mark} (hc : c ∉ ['*', '?', '+', '['])
      (h : Reads text marks) : Reads (c :: text) (.literal c :: marks)
  | anything {text : List Char} {marks : List Mark} (h : Reads text marks) :
      Reads ('*' :: '*' :: text) (.anything :: marks)
  | segment {text : List Char} {marks : List Mark} (hs : text.head? ≠ some '*')
      (h : Reads text marks) : Reads ('*' :: text) (.segment :: marks)
  | oneOf {parts : List ClassPart} {text : List Char} {marks : List Mark} (hn : parts ≠ [])
      (hp : ∀ p ∈ parts, p.Plain) (h : Reads text marks) :
      Reads ('[' :: (parts.flatMap ClassPart.text ++ ']' :: text)) (.oneOf parts :: marks)
  | optional {text : List Char} {marks : List Mark} (h : Reads text marks) :
      Reads ('?' :: text) (.optional :: marks)
  | repeated {text : List Char} {marks : List Mark} (h : Reads text marks) :
      Reads ('+' :: text) (.repeated :: marks)

namespace Mark

/-- What an item takes as it stands; a quantifier by itself takes nothing. -/
def language : Mark → Language Char
  | literal c => {[c]}
  | segment => {w | '/' ∉ w}
  | anything => {w | '\n' ∉ w}
  | oneOf parts => {w | ∃ c, w = [c] ∧ ∃ p ∈ parts, p.Holds c}
  | optional | repeated => 1

/-- The languages of the items, from the one that is being read on. A `?` makes it optional, unless
it stands right after a `+`; a `+` lets it be taken once or more. -/
def itemsFrom (item : Language Char) (afterPlus : Bool) : List Mark → List (Language Char)
  | [] => [item]
  | optional :: rest => itemsFrom (if afterPlus then item else item + 1) false rest
  | repeated :: rest => itemsFrom (item * item∗) true rest
  | m :: rest => item :: itemsFrom m.language false rest

def items : List Mark → List (Language Char)
  | [] => []
  | m :: rest => itemsFrom m.language false rest

def token : Mark → Token
  | literal c => .atom (.literal c)
  | segment => .atom .segment
  | anything => .atom .anything
  | oneOf parts => .bracket (parts.flatMap ClassPart.text)
  | optional => .quantifier .optional
  | repeated => .quantifier .repeated

end Mark

section Classes

variable {part : ClassPart} {parts : List ClassPart} {c : Char}

theorem text_chars (hp : part.Plain) (hc : c ∈ part.text) : c.isAlphanum = true ∨ c = '-' := by
  cases part with
  | one d =>
    rw [List.mem_singleton.mp hc]
    exact .inl hp
  | range low high =>
    obtain ⟨hl, hh, -⟩ := hp
    simp only [ClassPart.text, List.mem_cons, List.not_mem_nil, or_false] at hc
    rcases hc with rfl | rfl | rfl
    · exact .inl hl
    · exact .inr rfl
    · exact .inl hh

theorem bracket_not_mem (hp : ∀ p ∈ parts, p.Plain) :
    ∀ c ∈ parts.flatMap ClassPart.text, c ≠ ']' := by
  intro c hc
  obtain ⟨part, hm, hc⟩ := List.mem_flatMap.mp hc
  rintro rfl
  have := text_chars (hp part hm) hc
  revert this
  decide

/-- A part starts with a letter or a digit. -/
theorem text_head (hp : part.Plain) : ∃ c rest, part.text = c :: rest ∧ c.isAlphanum = true := by
  cases part with
  | one c => exact ⟨c, [], rfl, hp⟩
  | range low high => exact ⟨low, ['-', high], rfl, hp.1⟩

theorem head_alphanum (hp : ∀ p ∈ parts, p.Plain)
    (hc : (parts.flatMap ClassPart.text).head? = some c) : c.isAlphanum = true := by
  cases parts with
  | nil => simp at hc
  | cons part parts =>
    obtain ⟨d, rest, ht, hd⟩ := text_head (hp part List.mem_cons_self)
    rw [List.flatMap_cons, ht, List.cons_append, List.head?_cons, Option.some.injEq] at hc
    exact hc ▸ hd

theorem contains_iff {r : CharRange} : r.contains c = true ↔ r.low ≤ c ∧ c ≤ r.high := by
  simp [CharRange.contains]

theorem single_contains {d : Char} : (CharRange.single d).contains c = true ↔ c = d := by
  rw [contains_iff]
  constructor
  · rintro ⟨hd, hc⟩
    exact Char.le_antisymm hc hd
  · rintro rfl
    exact ⟨Char.le_refl c, Char.le_refl c⟩

theorem ne_of_alphanum {d : Char} (hc : c.isAlphanum = true) (hd : d.isAlphanum = false) :
    c ≠ d := by
  rintro rfl
  rw [hc] at hd
  cases hd

/-- A letter or a digit that no hyphen follows stands for itself. -/
theorem parseSet_one {pending : Option (CharSet × SetOp)} {ranges : List CharRange}
    {rest : List Char} (hc : c.isAlphanum = true) (hr : rest.head? ≠ some '-') :
    CharClass.parseSet pending ranges (c :: rest) =
      CharClass.parseSet pending (.single c :: ranges) rest := by
  have h₁ : c ≠ '[' := ne_of_alphanum hc rfl
  have h₂ : c ≠ '&' := ne_of_alphanum hc rfl
  have h₃ : c ≠ '-' := ne_of_alphanum hc rfl
  have h₄ : c ≠ '~' := ne_of_alphanum hc rfl
  cases rest with
  | nil => simp [CharClass.parseSet]
  | cons d rest =>
    have hd : d ≠ '-' := fun h => hr (by rw [h]; rfl)
    rw [CharClass.parseSet]
    all_goals simp_all

theorem parseSet_range {pending : Option (CharSet × SetOp)} {ranges : List CharRange}
    {low high : Char} {rest : List Char} (hl : low.isAlphanum = true)
    (hh : high.isAlphanum = true) (hle : low ≤ high) :
    CharClass.parseSet pending ranges (low :: '-' :: high :: rest) =
      CharClass.parseSet pending (⟨low, high, hle⟩ :: ranges) rest := by
  have h₁ : low ≠ '[' := ne_of_alphanum hl rfl
  have h₃ : low ≠ '-' := ne_of_alphanum hl rfl
  have hd : high ≠ '-' := ne_of_alphanum hh rfl
  rw [CharClass.parseSet]
  all_goals simp_all

/-- A class text of plain parts is read as the union of its parts. -/
theorem parseSet_parts (hp : ∀ p ∈ parts, p.Plain) (pending : Option (CharSet × SetOp))
    (ranges : List CharRange) :
    ∃ read, CharClass.parseSet pending ranges (parts.flatMap ClassPart.text) =
        some (CharClass.close pending read) ∧
      ∀ c, read.any (·.contains c) = true ↔
        (∃ p ∈ parts, p.Holds c) ∨ ranges.any (·.contains c) = true := by
  induction parts generalizing ranges with
  | nil =>
    refine ⟨ranges, ?_, by simp⟩
    rw [List.flatMap_nil, CharClass.parseSet]
  | cons part parts ih =>
    have hrest : ∀ p ∈ parts, p.Plain := fun p hm => hp p (List.mem_cons_of_mem _ hm)
    have hpart : part.Plain := hp part List.mem_cons_self
    rw [List.flatMap_cons]
    cases part with
    | one d =>
      have hhead : (parts.flatMap ClassPart.text).head? ≠ some '-' := by
        intro h
        cases head_alphanum hrest h
      obtain ⟨read, hread, hany⟩ := ih hrest (.single d :: ranges)
      refine ⟨read, (parseSet_one hpart hhead).trans hread, fun c => ?_⟩
      rw [hany, List.any_cons, Bool.or_eq_true, single_contains, List.exists_mem_cons_iff,
        ClassPart.Holds, or_left_comm, or_assoc]
    | range low high =>
      obtain ⟨hl, hh, hle⟩ := hpart
      obtain ⟨read, hread, hany⟩ := ih hrest (⟨low, high, hle⟩ :: ranges)
      refine ⟨read, (parseSet_range hl hh hle).trans hread, fun c => ?_⟩
      rw [hany, List.any_cons, Bool.or_eq_true, contains_iff, List.exists_mem_cons_iff,
        ClassPart.Holds, or_left_comm, or_assoc]

/-- A class that is written from letters, digits and ascending ranges holds what one of its parts
holds. -/
theorem parse_parts (hn : parts ≠ []) (hp : ∀ p ∈ parts, p.Plain) :
    ∃ k, CharClass.parse? (parts.flatMap ClassPart.text) = some k ∧
      ∀ c, k.contains c = true ↔ ∃ p ∈ parts, p.Holds c := by
  obtain ⟨part, rest, rfl⟩ := List.exists_cons_of_ne_nil hn
  obtain ⟨d, tail, ht, hd⟩ := text_head (hp part List.mem_cons_self)
  have htext : (part :: rest).flatMap ClassPart.text = d :: (tail ++ rest.flatMap ClassPart.text) := by
    rw [List.flatMap_cons, ht, List.cons_append]
  have hcaret : d ≠ '^' := ne_of_alphanum hd rfl
  have hhyphen : d ≠ '-' := ne_of_alphanum hd rfl
  obtain ⟨read, hread, hany⟩ := parseSet_parts hp none []
  refine ⟨⟨false, .union read.reverse⟩, ?_, fun c => ?_⟩
  · rw [htext] at hread ⊢
    simp [CharClass.parse?, hcaret, hhyphen, hread, CharClass.close]
  · simpa [CharClass.contains, CharSet.contains] using hany c

end Classes

theorem takeWhile_bracket {text : List Char} (h : ∀ c ∈ text, c ≠ ']') (rest : List Char) :
    (text ++ ']' :: rest).takeWhile (· ≠ ']') = text ∧
      (text ++ ']' :: rest).dropWhile (· ≠ ']') = ']' :: rest := by
  have h : ∀ c ∈ text, decide (c ≠ ']') = true := fun c hc => decide_eq_true (h c hc)
  rw [List.takeWhile_append_of_pos h, List.dropWhile_append_of_pos h]
  simp

/-- The tokens of a filter are its marks. -/
theorem scan_of_reads {text : List Char} {marks : List Mark} (h : Reads text marks) :
    Token.scan text = some (marks.map Mark.token) := by
  induction h with
  | nil => rw [Token.scan]; rfl
  | @literal c text marks hc _ ih =>
    simp only [List.mem_cons, List.not_mem_nil, or_false, not_or] at hc
    obtain ⟨h₁, h₂, h₃, h₄⟩ := hc
    rw [Token.scan]
    · simp [ih, Mark.token]
    all_goals simp_all
  | anything _ ih =>
    rw [Token.scan, ih]
    rfl
  | @segment text marks hs _ ih =>
    rw [Token.scan, ih]
    · rfl
    · rintro rest rfl
      exact hs rfl
  | @oneOf parts text marks hn hp _ ih =>
    obtain ⟨htake, hdrop⟩ := takeWhile_bracket (bracket_not_mem hp) text
    rw [Token.scan]
    split
    · next h =>
      rw [hdrop] at h
      cases h
    · next h =>
      rw [hdrop] at h
      injection h with _ h
      subst h
      rw [ih, htake]
      rfl
  | optional _ ih =>
    rw [Token.scan, ih]
    rfl
  | repeated _ ih =>
    rw [Token.scan, ih]
    rfl

section Extents

variable {accepts : Char → Bool} {o r : Bool}

/-- A slot that is made optional takes the empty text as well. -/
theorem language_optional :
    (Slot.mk accepts true r).language = (Slot.mk accepts o r).language + 1 := by
  ext w
  rw [Language.mem_add, Language.mem_one, mem_language, mem_language]
  cases w with
  | nil => simp
  | cons c w => simp

/-- A slot that is let repeat takes once or more what it took before. -/
theorem language_repeated : (Slot.mk accepts o true).language =
    (Slot.mk accepts o r).language * (Slot.mk accepts o r).language∗ := by
  ext w
  rw [Language.mem_mul]
  constructor
  · rintro ⟨hw, ho, -⟩
    cases w with
    | nil => exact ⟨[], nil_mem_language.mpr (ho rfl), [], Language.nil_mem_kstar _, rfl⟩
    | cons c w =>
      have hone : ∀ d ∈ c :: w, [d] ∈ (Slot.mk accepts o r).language :=
        fun d hd => singleton_mem_language.mpr (hw d hd)
      refine ⟨[c], hone c List.mem_cons_self, w, ?_, rfl⟩
      rw [Language.mem_kstar]
      refine ⟨w.map fun d => [d], (List.flatMap_singleton' w).symm, fun v hv => ?_⟩
      obtain ⟨d, hd, rfl⟩ := List.mem_map.mp hv
      exact hone d (List.mem_cons_of_mem _ hd)
  · rintro ⟨a, ⟨ha, ho, -⟩, b, hb, rfl⟩
    obtain ⟨pieces, rfl, hpieces⟩ := Language.mem_kstar.mp hb
    refine ⟨fun c hc => ?_, fun h => ho (List.append_eq_nil_iff.mp h).1, fun _ => rfl⟩
    rcases List.mem_append.mp hc with hc | hc
    · exact ha c hc
    · obtain ⟨piece, hp, hc⟩ := List.mem_flatten.mp hc
      exact (hpieces piece hp).1 c hc

theorem add_one_of_nil {l : Language Char} (h : [] ∈ l) : l + 1 = l := by
  ext w
  rw [Language.mem_add, Language.mem_one]
  constructor
  · rintro (hw | rfl)
    · exact hw
    · exact h
  · exact .inl

end Extents

/-- The texts that an item takes whose quantifiers have been read so far. -/
def taken (a : Atom) (e : Extent) : Language Char :=
  Slot.language ⟨a.accepts, e.optional, e.repeats⟩

/-- A `?` that is passed over stands after a `+`, or after what is optional already. -/
def Follows (e : Extent) (afterPlus : Bool) : Prop :=
  (afterPlus = true → e.opened = true) ∧ (e.opened = true → afterPlus = true ∨ e.optional = true)

theorem follows_ofAtom (a : Atom) : Follows (.ofAtom a) false :=
  ⟨nofun, .inr⟩

/-- Behind another quantifier a `?` asks for the shorter match only, which takes no text more. -/
theorem taken_optional {a : Atom} {e : Extent} {afterPlus : Bool} (h : Follows e afterPlus) :
    taken a (e.quantify .optional) = (if afterPlus then taken a e else taken a e + 1) ∧
      Follows (e.quantify .optional) false := by
  obtain ⟨hplus, hopen⟩ := h
  cases ho : e.opened with
  | true =>
    have hq : e.quantify .optional = { e with opened := false } := by simp [Extent.quantify, ho]
    rw [hq]
    refine ⟨?_, nofun, nofun⟩
    split
    · rfl
    · next hp =>
      have hnil : [] ∈ taken a e := nil_mem_language.mpr ((hopen ho).resolve_left hp)
      exact (add_one_of_nil hnil).symm
  | false =>
    have hq : e.quantify .optional = ⟨true, e.repeats, true, e.levels + 1⟩ := by
      simp [Extent.quantify, ho]
    have hp : ¬afterPlus = true := fun hp => by simp [ho] at hplus; simp [hp] at hplus
    rw [hq, if_neg hp]
    exact ⟨language_optional, nofun, fun _ => .inr rfl⟩

theorem taken_repeated {a : Atom} {e : Extent} :
    taken a (e.quantify .repeated) = taken a e * (taken a e)∗ ∧
      Follows (e.quantify .repeated) true :=
  ⟨language_repeated, fun _ => rfl, fun _ => .inl rfl⟩

/-- An atom that is taken once. -/
theorem taken_once {a : Atom} {w : List Char} (hs : a.starred = false) :
    w ∈ taken a (.ofAtom a) ↔ ∃ c, w = [c] ∧ a.accepts c = true := by
  simp only [taken, mem_language, Extent.ofAtom, hs]
  constructor
  · rintro ⟨hw, ho, hr⟩
    match w with
    | [] => simp at ho
    | [c] => exact ⟨c, rfl, hw c List.mem_cons_self⟩
    | _ :: _ :: _ => simp at hr
  · rintro ⟨c, rfl, hc⟩
    simp [hc]

theorem taken_starred {a : Atom} {w : List Char} (hs : a.starred = true) :
    w ∈ taken a (.ofAtom a) ↔ ∀ c ∈ w, a.accepts c = true := by
  simp [taken, mem_language, Extent.ofAtom, hs]

theorem taken_literal (c : Char) : taken (.literal c) (.ofAtom (.literal c)) =
    (Mark.literal c).language := by
  ext w
  rw [taken_once rfl]
  constructor
  · rintro ⟨d, rfl, hd⟩
    exact congrArg (fun c => [c]) (of_decide_eq_true hd).symm
  · rintro rfl
    exact ⟨c, rfl, decide_eq_true rfl⟩

/-- A starred atom that takes all but one character goes up to that character. -/
theorem taken_avoiding {a : Atom} {stop : Char} (hs : a.starred = true)
    (ha : ∀ c, a.accepts c = true ↔ c ≠ stop) : taken a (.ofAtom a) = {w | stop ∉ w} := by
  ext w
  rw [taken_starred hs]
  constructor
  · intro hw hstop
    exact (ha stop).mp (hw stop hstop) rfl
  · intro hw c hc
    exact (ha c).mpr fun h => hw (h ▸ hc)

theorem taken_oneOf {parts : List ClassPart} {k : CharClass}
    (hk : ∀ c, k.contains c = true ↔ ∃ p ∈ parts, p.Holds c) :
    taken (.oneOf k) (.ofAtom (.oneOf k)) = (Mark.oneOf parts).language := by
  ext w
  rw [taken_once rfl]
  exact exists_congr fun c => and_congr_right fun _ => hk c

/-- The items of a filter, as the matcher sees them. -/
def languages (items : List Item) : List (Language Char) := items.map fun i => i.slot.language

/-- An atom that is begun gets the quantifiers that follow it. -/
theorem itemsFrom_atom {b : Atom} {l : Language Char} {marks : List Mark} {items : List Item}
    (hb : taken b (.ofAtom b) = l)
    (hi : (Item.ofTokens? (marks.map Mark.token)).map
      (⟨b, Token.quantifiers (marks.map Mark.token)⟩ :: ·) = some items)
    (ih : ∀ {rest : List Item}, Item.ofTokens? (marks.map Mark.token) = some rest →
      Mark.itemsFrom (taken b (.ofAtom b)) false marks =
        taken b ((Token.quantifiers (marks.map Mark.token)).foldl Extent.quantify (.ofAtom b)) ::
          languages rest) :
    Mark.itemsFrom l false marks = languages items := by
  obtain ⟨rest, hrest, rfl⟩ := Option.map_eq_some_iff.mp hi
  rw [← hb, ih hrest]
  rfl

/-- The marks that follow what was begun: the quantifiers at their head belong to it, and every atom
after them begins an item of its own. -/
theorem itemsFrom_eq {a : Atom} {e : Extent} {afterPlus : Bool} {text : List Char}
    {marks : List Mark} {items : List Item} (hr : Reads text marks) (hf : Follows e afterPlus)
    (hi : Item.ofTokens? (marks.map Mark.token) = some items) :
    Mark.itemsFrom (taken a e) afterPlus marks =
      taken a ((Token.quantifiers (marks.map Mark.token)).foldl Extent.quantify e) ::
        languages items := by
  induction hr generalizing a e afterPlus items with
  | nil =>
    obtain rfl := Option.some.inj hi
    rfl
  | @literal c _ _ _ _ ih =>
    exact congrArg (taken a e :: ·)
      (itemsFrom_atom (taken_literal c) hi fun h => ih (follows_ofAtom _) h)
  | anything _ ih =>
    have htaken := taken_avoiding (a := .anything) rfl fun _ => decide_eq_true_iff
    exact congrArg (taken a e :: ·) (itemsFrom_atom htaken hi fun h => ih (follows_ofAtom _) h)
  | segment _ _ ih =>
    have htaken := taken_avoiding (a := .segment) rfl fun _ => decide_eq_true_iff
    exact congrArg (taken a e :: ·) (itemsFrom_atom htaken hi fun h => ih (follows_ofAtom _) h)
  | oneOf hn hp _ ih =>
    obtain ⟨k, hk, hc⟩ := parse_parts hn hp
    rw [List.map_cons, Mark.token, Item.ofTokens?, hk] at hi
    exact congrArg (taken a e :: ·)
      (itemsFrom_atom (taken_oneOf hc) hi fun h => ih (follows_ofAtom _) h)
  | optional _ ih =>
    obtain ⟨ht, hf⟩ := taken_optional (a := a) hf
    rw [Mark.itemsFrom, ← ht, ih hf hi]
    rfl
  | repeated _ ih =>
    obtain ⟨ht, hf⟩ := taken_repeated (a := a) (e := e)
    rw [Mark.itemsFrom, ← ht, ih hf hi]
    rfl

/-- A filter that does not start with a quantifier: nothing was begun before its first item. -/
theorem items_eq_tail {l : Language Char} {afterPlus : Bool} {text : List Char} {marks : List Mark}
    (hr : Reads text marks) (hq : ∀ c, text.head? = some c → c ≠ '?' ∧ c ≠ '+') :
    Mark.items marks = (Mark.itemsFrom l afterPlus marks).tail := by
  cases hr with
  | nil | literal | anything | segment | oneOf => rfl
  | optional => exact absurd rfl (hq '?' rfl).1
  | repeated => exact absurd rfl (hq '+' rfl).2

/-- The matcher works on the items that the marks stand for. -/
theorem languages_eq {text : List Char} {marks : List Mark} {items : List Item}
    (hr : Reads text marks) (hq : ∀ c, text.head? = some c → c ≠ '?' ∧ c ≠ '+')
    (hi : Item.ofTokens? (marks.map Mark.token) = some items) :
    languages items = Mark.items marks := by
  -- any atom may stand in front of the first item, since it is left out again
  rw [items_eq_tail hr hq, itemsFrom_eq (a := .segment) hr (follows_ofAtom .segment) hi]
  rfl

/-- What is left of a filter after one leading `!`. -/
def bodyOf (glob : String) : List Char :=
  match glob.toList with
  | '!' :: body => body
  | body => body

theorem bodyOf_cases (glob : String) :
    (∃ body, glob.toList = '!' :: body ∧ bodyOf glob = body) ∨
    (∀ body, glob.toList ≠ '!' :: body) ∧ bodyOf glob = glob.toList := by
  unfold bodyOf
  split
  · next body hg => exact .inl ⟨body, hg, rfl⟩
  · next hg => exact .inr ⟨hg, rfl⟩

/-- A filter may not start with a quantifier. -/
theorem parseBody_ok {body : List Char} {items : List Item}
    (h : TagPattern.parseBody body = .ok items) :
    (∀ c, body.head? = some c → c ≠ '?' ∧ c ≠ '+') ∧
    ∃ tokens, Token.scan body = some tokens ∧ Item.ofTokens? tokens = some items := by
  cases body with
  | nil => cases h
  | cons c rest =>
    simp only [TagPattern.parseBody] at h
    split at h
    · cases h
    · next hc =>
      refine ⟨?_, ?_⟩
      · intro d hd
        obtain rfl := Option.some.inj hd
        simpa using hc
      · split at h
        · cases h
        · next tokens ht =>
          refine ⟨tokens, ht, ?_⟩
          split at h
          · cases h
          · next found hf =>
            rw [hf]
            split at h
            · cases h
            · split at h
              · cases h
              · cases h
                rfl

/-- The `!` of an exclusion is no part of what is matched. -/
theorem parse_ok {glob : String} {p : TagPattern} (h : TagPattern.parse glob = .ok p) :
    TagPattern.parseBody (bodyOf glob) = .ok p.items := by
  have map_ok {e : Except PatternError (List Item)} {negated : Bool}
      (h : e.map (⟨glob, negated, ·⟩) = .ok p) : e = .ok p.items := by
    cases e with
    | error => cases h
    | ok => cases h; rfl
  unfold TagPattern.parse at h
  rcases bodyOf_cases glob with ⟨body, hg, hb⟩ | ⟨hg, hb⟩
  · rw [hg] at h
    rw [hb]
    exact map_ok h
  · rw [hb]
    split at h
    · next body hbody => exact absurd hbody (hg body)
    · exact map_ok h

/-- A filter that parses, and is made of plain characters, stars, quantifiers and classes of plain
parts, matches the tags that can be cut into one piece per item, each in the language of its item. -/
theorem accepts_iff_pieces {glob : String} {p : TagPattern} {marks : List Mark}
    (hp : TagPattern.parse glob = .ok p) (hr : Reads (bodyOf glob) marks) (tag : String) :
    p.accepts tag = true ↔ ∃ pieces : List (List Char), pieces.flatten = tag.toList ∧
      List.Forall₂ (· ∈ ·) pieces (Mark.items marks) := by
  obtain ⟨hq, tokens, hscan, hitems⟩ := parseBody_ok (parse_ok hp)
  rw [scan_of_reads hr] at hscan
  obtain rfl := Option.some.inj hscan
  rw [TagPattern.accepts, matchItems, matchAll_iff, List.map_map]
  change tag.toList ∈ (languages p.items).prod ↔ _
  rw [languages_eq hr hq hitems, mem_prod_iff]

/-- A number, any text at all, and a mark that may want its last letter. -/
def prerelease : List Mark :=
  [.literal 'v', .oneOf [.range '0' '9'], .repeated, .literal '.', .anything, .literal '-',
    .literal 'r', .literal 'c', .optional]

theorem prerelease_pieces : ∃ p, TagPattern.parse "!v[0-9]+.**-rc?" = .ok p ∧
    Reads (bodyOf "!v[0-9]+.**-rc?") prerelease ∧
    (∃ pieces : List (List Char), pieces.flatten = "v10.2/x-r".toList ∧
      List.Forall₂ (· ∈ ·) pieces (Mark.items prerelease)) ∧
    ¬∃ pieces : List (List Char), pieces.flatten = "v10.2/xr".toList ∧
      List.Forall₂ (· ∈ ·) pieces (Mark.items prerelease) := by
  have hdigits : [ClassPart.range '0' '9'] ≠ [] := by simp
  have hplain : ∀ p ∈ [ClassPart.range '0' '9'], p.Plain := by
    intro p hp
    rw [List.mem_singleton.mp hp]
    exact ⟨rfl, rfl, by decide⟩
  have htail : Reads ['-', 'r', 'c', '?'] [.literal '-', .literal 'r', .literal 'c', .optional] :=
    .literal (by decide) (.literal (by decide) (.literal (by decide) (.optional .nil)))
  have hreads : Reads (bodyOf "!v[0-9]+.**-rc?") prerelease :=
    .literal (by decide) (.oneOf hdigits hplain
      (.repeated (.literal (by decide) (.anything htail))))
  have hmatches : (TagPattern.parse "!v[0-9]+.**-rc?").toOption.map
      (fun p => (p.accepts "v10.2/x-r", p.accepts "v10.2/xr")) = some (true, false) := by
    decide +kernel
  cases hp : TagPattern.parse "!v[0-9]+.**-rc?" with
  | error e =>
    rw [hp] at hmatches
    cases hmatches
  | ok p =>
    rw [hp] at hmatches
    obtain ⟨hyes, hno⟩ := Prod.mk.inj (Option.some.inj hmatches)
    refine ⟨p, rfl, hreads, (accepts_iff_pieces hp hreads _).mp hyes, fun h => ?_⟩
    have := (accepts_iff_pieces hp hreads _).mpr h
    rw [hno] at this
    cases this

end ReleaseJob.Proofs
