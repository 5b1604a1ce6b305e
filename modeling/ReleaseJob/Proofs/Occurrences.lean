import ReleaseJob.Proofs.Masking

namespace ReleaseJob.Proofs
open Redaction

/-- A place in a text where one of the words stands. An empty word stands nowhere. -/
structure Occurrence (words : List String) (text : List Char) where
  word : String
  start : Nat
  word_mem : word ∈ words
  word_ne_empty : word ≠ ""
  stands : word.toList <+: text.drop start

namespace Occurrence

variable {words : List String} {text : List Char}

def stop (o : Occurrence words text) : Nat := o.start + o.word.length

/-- They share a position. -/
def Meets (o p : Occurrence words text) : Prop := o.start < p.stop ∧ p.start < o.stop

def LiesIn (o p : Occurrence words text) : Prop := p.start ≤ o.start ∧ o.stop ≤ p.stop

end Occurrence

/-- A position of a text that belongs to an occurrence. -/
def Covered (words : List String) (text : List Char) (i : Nat) : Prop :=
  ∃ o : Occurrence words text, o.start ≤ i ∧ i < o.stop

/-- What masking makes of a part of a text. -/
inductive Piece
  | kept (c : Char)
  | masked (word : String)

namespace Piece

/-- The part as it was. -/
def read : Piece → List Char
  | kept c => [c]
  | masked word => word.toList

def shown : Piece → List Char
  | kept c => [c]
  | masked _ => mask.toList

end Piece

/-- Where in the text a word is masked. -/
inductive MaskedAt (word : String) : Nat → List Piece → Prop
  | here {rest : List Piece} : MaskedAt word 0 (.masked word :: rest)
  | there {k : Nat} {p : Piece} {rest : List Piece} (h : MaskedAt word k rest) :
      MaskedAt word (p.read.length + k) (p :: rest)

/-- A position of the text that belongs to a word that is masked. -/
def Blotted (pieces : List Piece) (i : Nat) : Prop :=
  ∃ u k, MaskedAt u k pieces ∧ k ≤ i ∧ i < k + u.length

/-- One pass over the pieces of a text: the word is masked wherever it is found, from left to right. -/
inductive Pass (word : String) : List Piece → List Piece → Prop
  | nil : Pass word [] []
  | masked {u : String} {ps qs : List Piece} (h : Pass word ps qs) :
      Pass word (.masked u :: ps) (.masked u :: qs)
  | found {ps qs : List Piece} (h : Pass word ps qs) :
      Pass word (word.toList.map .kept ++ ps) (.masked word :: qs)
  | kept {c : Char} {ps qs : List Piece} (hn : ¬word.toList.map .kept <+: .kept c :: ps)
      (h : Pass word ps qs) : Pass word (.kept c :: ps) (.kept c :: qs)

section Pieces

variable {pieces ps qs : List Piece} {n : Char} {ns w text : List Char} {u word : String} {k : Nat}

theorem read_kept (w : List Char) : (w.map Piece.kept).flatMap Piece.read = w := by
  induction w with
  | nil => rfl
  | cons c w ih => exact congrArg (c :: ·) ih

theorem shown_kept (w : List Char) : (w.map Piece.kept).flatMap Piece.shown = w := by
  induction w with
  | nil => rfl
  | cons c w ih => exact congrArg (c :: ·) ih

/-- What is shown starts with a word without stars only where the word was kept. -/
theorem prefix_shown (hw : '*' ∉ w) :
    w <+: ps.flatMap Piece.shown ↔ w.map Piece.kept <+: ps := by
  induction w generalizing ps with
  | nil => simp
  | cons c w ih =>
    obtain ⟨hc, hw⟩ := not_or.mp (List.mem_cons.not.mp hw)
    cases ps with
    | nil => simp
    | cons p ps =>
      cases p with
      | kept d =>
        change c :: w <+: d :: ps.flatMap Piece.shown ↔ Piece.kept c :: w.map Piece.kept <+: _
        rw [List.cons_prefix_cons, List.cons_prefix_cons, ih hw, Piece.kept.injEq]
      | masked u =>
        refine iff_of_false (fun h => ?_) (fun h => ?_)
        · exact hc (List.cons_prefix_cons.mp h).1.symm
        · cases (List.cons_prefix_cons.mp h).1

theorem maskAll_mask (hn : '*' ≠ n) (text : List Char) :
    maskAll n ns (mask.toList ++ text) = mask.toList ++ maskAll n ns text := by
  have hstar (rest : List Char) : maskAll n ns ('*' :: rest) = '*' :: maskAll n ns rest := by
    rw [maskAll, if_neg]
    intro h
    exact hn (List.cons_prefix_cons.mp (List.isPrefixOf_iff_prefix.mp h)).1.symm
  change maskAll n ns ('*' :: '*' :: '*' :: text) = _
  rw [hstar, hstar, hstar]
  rfl

/-- What a pass of masking does to what is shown, it does to the pieces. -/
theorem maskAll_pass (hw : '*' ∉ n :: ns) (hword : word.toList = n :: ns) (ps : List Piece) :
    ∃ qs, Pass word ps qs ∧
      maskAll n ns (ps.flatMap Piece.shown) = qs.flatMap Piece.shown := by
  match ps with
  | [] => exact ⟨[], .nil, by simp [maskAll]⟩
  | .masked u :: rest =>
    obtain ⟨qs, hpass, hshown⟩ := maskAll_pass hw hword rest
    refine ⟨.masked u :: qs, .masked hpass, ?_⟩
    rw [List.flatMap_cons, Piece.shown, maskAll_mask (fun h => hw (h ▸ List.mem_cons_self)), hshown]
    rfl
  | .kept c :: rest =>
    by_cases hfound : (n :: ns).map Piece.kept <+: .kept c :: rest
    · obtain ⟨after, hafter⟩ := hfound
      obtain ⟨qs, hpass, hshown⟩ := maskAll_pass hw hword after
      have hfront : (Piece.kept c :: rest).flatMap Piece.shown =
          n :: (ns ++ after.flatMap Piece.shown) := by
        rw [← hafter, List.flatMap_append, shown_kept]
        rfl
      refine ⟨.masked word :: qs, ?_, ?_⟩
      · rw [← hafter, ← hword]
        exact .found hpass
      · rw [hfront, maskAll, if_pos, List.drop_left, hshown]
        · rfl
        · exact List.isPrefixOf_iff_prefix.mpr ⟨_, rfl⟩
    · obtain ⟨qs, hpass, hshown⟩ := maskAll_pass hw hword rest
      refine ⟨.kept c :: qs, .kept (hword ▸ hfound) hpass, ?_⟩
      have hno : ¬(n :: ns).isPrefixOf (c :: rest.flatMap Piece.shown) = true := by
        intro h
        exact hfound ((prefix_shown hw).mp (List.isPrefixOf_iff_prefix.mp h))
      change maskAll n ns (c :: rest.flatMap Piece.shown) = c :: qs.flatMap Piece.shown
      rw [maskAll, if_neg hno, hshown]
  -- where the word stands, all of it is passed over at once
  termination_by ps.length
  decreasing_by
    · simp
    · have := congrArg List.length hafter
      simp only [List.length_append, List.length_map, List.length_cons] at this ⊢
      omega
    · simp

/-- A pass over the text that was masked before is a pass over its pieces. -/
theorem maskValue_pass {v text : String} (hne : v ≠ "") (hv : '*' ∉ v.toList)
    (h : text.toList = ps.flatMap Piece.shown) :
    ∃ qs, Pass v ps qs ∧ (maskValue v text).toList = qs.flatMap Piece.shown := by
  unfold maskValue
  split
  · next hempty => exact absurd (String.toList_eq_nil_iff.mp hempty) hne
  · next n ns hword =>
    obtain ⟨qs, hpass, hshown⟩ := maskAll_pass (hword ▸ hv) hword ps
    exact ⟨qs, hpass, by rw [String.toList_ofList, h, hshown]⟩

theorem MaskedAt.mem (h : MaskedAt u k pieces) : .masked u ∈ pieces := by
  induction h with
  | here => exact List.mem_cons_self
  | there _ ih => exact List.mem_cons_of_mem _ ih

/-- What is read behind the first piece. -/
theorem drop_read {p : Piece} (hk : p.read.length ≤ k) :
    ((p :: ps).flatMap Piece.read).drop k = (ps.flatMap Piece.read).drop (k - p.read.length) := by
  rw [List.flatMap_cons, List.drop_append, List.drop_of_length_le hk, List.nil_append]

/-- What is masked at a place is what stood there. -/
theorem MaskedAt.stands (h : MaskedAt u k pieces) :
    u.toList <+: (pieces.flatMap Piece.read).drop k := by
  induction h with
  | here => exact ⟨_, rfl⟩
  | there _ ih =>
    rw [drop_read (Nat.le_add_right _ _), Nat.add_sub_cancel_left]
    exact ih

/-- What is masked behind characters that are kept. -/
theorem maskedAt_kept_append {w : List Char} :
    MaskedAt u k (w.map Piece.kept ++ ps) → ∃ l, k = w.length + l ∧ MaskedAt u l ps := by
  induction w generalizing k with
  | nil => exact fun h => ⟨k, (Nat.zero_add k).symm, h⟩
  | cons c w ih =>
    rintro (_ | h)
    obtain ⟨l, rfl, hrest⟩ := ih h
    refine ⟨l, ?_, hrest⟩
    simp only [Piece.read, List.length_cons, List.length_nil]
    omega

/-- A word that stands at the front of a text without being kept there reaches into a mask. -/
theorem masked_within (hw : w <+: ps.flatMap Piece.read) (hn : ¬w.map Piece.kept <+: ps) :
    ∃ u l, MaskedAt u l ps ∧ l < w.length := by
  induction w generalizing ps with
  | nil => exact absurd List.nil_prefix hn
  | cons c w ih =>
    cases ps with
    | nil => simp at hw
    | cons p ps =>
      cases p with
      | kept d =>
        obtain ⟨rfl, hrest⟩ := List.cons_prefix_cons.mp hw
        have hn : ¬w.map Piece.kept <+: ps := fun h => hn ((List.prefix_cons_inj _).mpr h)
        obtain ⟨u, l, hm, hl⟩ := ih hrest hn
        refine ⟨u, _, .there hm, ?_⟩
        simp only [Piece.read, List.length_cons, List.length_nil]
        omega
      | masked u => exact ⟨u, 0, .here, Nat.zero_lt_succ _⟩

section Pass

/-- Pieces always tell the text as it was. -/
theorem Pass.reads (h : Pass word ps qs) :
    qs.flatMap Piece.read = ps.flatMap Piece.read := by
  induction h with
  | nil => rfl
  | masked _ ih | kept _ _ ih => rw [List.flatMap_cons, List.flatMap_cons, ih]
  | found _ ih => rw [List.flatMap_cons, List.flatMap_append, read_kept, ih, Piece.read]

theorem Pass.masked_mem (h : Pass word ps qs) (hu : .masked u ∈ qs) :
    u = word ∨ .masked u ∈ ps := by
  induction h with
  | nil => cases hu
  | masked _ ih =>
    rcases List.mem_cons.mp hu with hu | hu
    · exact .inr (hu ▸ List.mem_cons_self)
    · exact (ih hu).imp_right (List.mem_cons_of_mem _)
  | found _ ih =>
    rcases List.mem_cons.mp hu with hu | hu
    · exact .inl (Piece.masked.inj hu)
    · exact (ih hu).imp_right (List.mem_append_right _)
  | kept _ _ ih =>
    rcases List.mem_cons.mp hu with hu | hu
    · cases hu
    · exact (ih hu).imp_right (List.mem_cons_of_mem _)

/-- What is masked stays masked. -/
theorem Pass.maskedAt (h : Pass word ps qs) (hm : MaskedAt u k ps) : MaskedAt u k qs := by
  induction h generalizing k with
  | nil => cases hm
  | masked _ ih =>
    cases hm with
    | here => exact .here
    | there hm => exact .there (ih hm)
  | found _ ih =>
    obtain ⟨l, rfl, hrest⟩ := maskedAt_kept_append hm
    exact .there (p := .masked word) (ih hrest)
  | kept _ _ ih =>
    cases hm with
    | there hm => exact .there (ih hm)

/-- A mask that is met behind the first piece. -/
theorem met_behind {p : Piece} {m : Nat} (hk : p.read.length ≤ k)
    (h : ∃ u l, MaskedAt u l ps ∧ k - p.read.length < l + u.length ∧ l < k - p.read.length + m) :
    ∃ u l, MaskedAt u l (p :: ps) ∧ k < l + u.length ∧ l < k + m := by
  obtain ⟨u, l, hm, hl, hr⟩ := h
  exact ⟨u, _, .there hm, by omega, by omega⟩

/-- Wherever its word stands in the text, a pass leaves a mask that reaches into it. -/
theorem Pass.met (h : Pass word ps qs) (hne : 0 < word.length)
    (hqs : ∀ u, .masked u ∈ qs → 0 < u.length)
    (hw : word.toList <+: (qs.flatMap Piece.read).drop k) :
    ∃ u l, MaskedAt u l qs ∧ k < l + u.length ∧ l < k + word.length := by
  induction h generalizing k with
  | nil =>
    rw [List.flatMap_nil, List.drop_nil, List.prefix_nil, String.toList_eq_nil_iff] at hw
    subst hw
    cases hne
  | @masked u ps qs _ ih =>
    by_cases hk : k < u.length
    · exact ⟨u, 0, .here, by omega, by omega⟩
    · have hk : (Piece.masked u).read.length ≤ k := String.length_toList ▸ Nat.le_of_not_lt hk
      rw [drop_read hk] at hw
      exact met_behind hk (ih (fun v hv => hqs v (List.mem_cons_of_mem _ hv)) hw)
  | @found ps qs _ ih =>
    by_cases hk : k < word.length
    · exact ⟨word, 0, .here, by omega, by omega⟩
    · have hk : (Piece.masked word).read.length ≤ k := String.length_toList ▸ Nat.le_of_not_lt hk
      rw [drop_read hk] at hw
      exact met_behind hk (ih (fun v hv => hqs v (List.mem_cons_of_mem _ hv)) hw)
  | @kept c ps qs hn hpass ih =>
    cases k with
    | zero =>
      -- the word was not found here, so what stands here in its stead reaches into a mask
      have hpass : Pass word (.kept c :: ps) (.kept c :: qs) := .kept hn hpass
      rw [List.drop_zero, hpass.reads] at hw
      obtain ⟨u, l, hm, hl⟩ := masked_within hw hn
      have hm := hpass.maskedAt hm
      have hpos := hqs u hm.mem
      rw [String.length_toList] at hl
      exact ⟨u, l, hm, by omega, by omega⟩
    | succ k =>
      have hk : (Piece.kept c).read.length ≤ k + 1 := Nat.le_add_left 1 k
      rw [drop_read hk] at hw
      exact met_behind hk (ih (fun v hv => hqs v (List.mem_cons_of_mem _ hv)) hw)

end Pass

end Pieces

section Order

/-- Words that may be masked in this order, the longest first. -/
def NotShorter (v w : String) : Prop := w.utf8ByteSize ≤ v.utf8ByteSize

instance : DecidableRel NotShorter :=
  fun v w => inferInstanceAs (Decidable (w.utf8ByteSize ≤ v.utf8ByteSize))

instance : Std.Total NotShorter where
  total v w := Nat.le_total w.utf8ByteSize v.utf8ByteSize

instance : IsTrans String NotShorter where
  trans _ _ _ hvw hwx := Nat.le_trans hwx hvw

theorem byLength_ordered (l : List String) : (byLength l).Pairwise NotShorter :=
  Ranked.ofList_ordered (fun v w => by simp [NotShorter]) l

end Order

/-- How a text is cut into pieces by passes with some words: what is masked are occurrences of the
words, and every occurrence of a word meets one that is masked and not shorter. -/
structure Cut (words : List String) (text : List Char) (pieces : List Piece) : Prop where
  reads : pieces.flatMap Piece.read = text
  taken : ∀ u, .masked u ∈ pieces → u ∈ words ∧ u ≠ ""
  met : ∀ o : Occurrence words text, ∃ u k, MaskedAt u k pieces ∧ o.start < k + u.length ∧
    k < o.stop ∧ NotShorter u o.word

section Passes

variable {words l : List String} {text : List Char} {ps qs pieces : List Piece} {v u : String}
  {k i : Nat}

theorem length_pos (h : v ≠ "") : 0 < v.length :=
  Nat.pos_of_ne_zero fun hv => h (String.length_eq_zero_iff.mp hv)

theorem cut_kept (text : List Char) : Cut [] text (text.map Piece.kept) where
  reads := read_kept text
  taken u hu := by simp at hu
  met o := nomatch o.word_mem

theorem Cut.occurrence (h : Cut words text pieces) (hm : MaskedAt u k pieces) :
    ∃ o : Occurrence words text, o.word = u ∧ o.start = k := by
  obtain ⟨hu, hne⟩ := h.taken u hm.mem
  exact ⟨⟨u, k, hu, hne, h.reads ▸ hm.stands⟩, rfl, rfl⟩

/-- A shorter word can be masked only where no longer one was, so what it meets is not shorter. -/
theorem Cut.pass (h : Cut words text ps) (hp : Pass v ps qs) (hv : v ≠ "")
    (hwords : ∀ u ∈ words, NotShorter u v) : Cut (words ++ [v]) text qs := by
  have htaken : ∀ u, .masked u ∈ qs → u ∈ words ++ [v] ∧ u ≠ "" := by
    intro u hu
    rcases hp.masked_mem hu with rfl | hu
    · exact ⟨List.mem_append_right _ List.mem_cons_self, hv⟩
    · exact (h.taken u hu).imp_left (List.mem_append_left _)
  have hreads : qs.flatMap Piece.read = text := hp.reads.trans h.reads
  refine ⟨hreads, htaken, ?_⟩
  rintro ⟨word, start, hmem, hne, hstands⟩
  change ∃ u k, MaskedAt u k qs ∧ start < k + u.length ∧ k < start + word.length ∧ NotShorter u word
  rcases List.mem_append.mp hmem with hold | hnew
  · obtain ⟨u, k, hm, hmet⟩ := h.met ⟨word, start, hold, hne, hstands⟩
    exact ⟨u, k, hp.maskedAt hm, hmet⟩
  · obtain rfl := List.mem_singleton.mp hnew
    rw [← hreads] at hstands
    obtain ⟨u, k, hm, hl, hr⟩ :=
      hp.met (length_pos hv) (fun u hu => length_pos (htaken u hu).2) hstands
    refine ⟨u, k, hm, hl, hr, ?_⟩
    rcases List.mem_append.mp (htaken u hm.mem).1 with hu | hu
    · exact hwords u hu
    · exact Nat.le_of_eq (congrArg _ (List.mem_singleton.mp hu).symm)

/-- An empty word is nowhere, and nothing is done about it. -/
theorem Cut.skip (h : Cut words text ps) : Cut (words ++ [""]) text ps where
  reads := h.reads
  taken u hu := (h.taken u hu).imp_left (List.mem_append_left _)
  met o := by
    rcases List.mem_append.mp o.word_mem with hold | hnew
    · exact h.met ⟨o.word, o.start, hold, o.word_ne_empty, o.stands⟩
    · exact absurd (List.mem_singleton.mp hnew) o.word_ne_empty

/-- Passes one after the other, in an order in which no word comes behind a shorter one. -/
theorem Cut.passes {shown : String} (h : Cut words text ps)
    (hshown : shown.toList = ps.flatMap Piece.shown) (hl : ∀ v ∈ l, '*' ∉ v.toList)
    (ho : (words ++ l).Pairwise NotShorter) :
    ∃ qs, Cut (words ++ l) text qs ∧
      (l.foldl (fun t v => maskValue v t) shown).toList = qs.flatMap Piece.shown := by
  induction l generalizing words ps shown with
  | nil => exact ⟨ps, (List.append_nil words).symm ▸ h, hshown⟩
  | cons v rest ih =>
    have hrest : ∀ v ∈ rest, '*' ∉ v.toList := fun u hu => hl u (List.mem_cons_of_mem _ hu)
    have hwords : ∀ u ∈ words, NotShorter u v :=
      fun u hu => (List.pairwise_append.mp ho).2.2 u hu v List.mem_cons_self
    rw [List.append_cons] at ho ⊢
    rw [List.foldl_cons]
    by_cases hv : v = ""
    · subst hv
      exact ih h.skip hshown hrest ho
    · obtain ⟨qs, hpass, hqs⟩ := maskValue_pass hv (hl v List.mem_cons_self) hshown
      exact ih (h.pass hpass hv hwords) hqs hrest ho

/-- A word that holds another one and is not longer is the same. -/
theorem eq_of_infix (h : u.toList <:+: v.toList) (hs : NotShorter u v) : u = v := by
  obtain ⟨front, back, hv⟩ := h
  have hv : v = String.ofList front ++ u ++ String.ofList back := by
    rw [← String.toList_inj, ← hv]
    simp
  have hsize := congrArg String.utf8ByteSize hv
  rw [String.utf8ByteSize_append, String.utf8ByteSize_append] at hsize
  unfold NotShorter at hs
  have hfront : String.ofList front = "" := String.utf8ByteSize_eq_zero_iff.mp (by omega)
  have hback : String.ofList back = "" := String.utf8ByteSize_eq_zero_iff.mp (by omega)
  rw [hv, hfront, hback]
  simp

/-- The word of an occurrence that lies in another one is part of its word. -/
theorem Occurrence.LiesIn.infix {o p : Occurrence words text} (h : o.LiesIn p) :
    o.word.toList <:+: p.word.toList := by
  obtain ⟨hstart, hstop⟩ := h
  unfold Occurrence.stop at hstop
  have hlength : o.word.toList.length ≤ (p.word.toList.drop (o.start - p.start)).length := by
    rw [List.length_drop, String.length_toList, String.length_toList]
    omega
  have hp : p.word.toList.drop (o.start - p.start) <+: text.drop o.start := by
    have hdrop := p.stands.drop (o.start - p.start)
    rwa [List.drop_drop, Nat.add_sub_cancel' hstart] at hdrop
  have hprefix := List.prefix_of_prefix_length_le o.stands hp hlength
  exact hprefix.isInfix.trans (List.drop_suffix ..).isInfix

/-- Where occurrences that meet lie one within the other, they are masked as a whole. -/
theorem Cut.covered_iff (h : Cut words text pieces)
    (hn : ∀ o p : Occurrence words text, o.Meets p → o.LiesIn p ∨ p.LiesIn o) :
    Covered words text i ↔ Blotted pieces i := by
  constructor
  · rintro ⟨o, hstart, hstop⟩
    obtain ⟨u, k, hm, hl, hr, hsize⟩ := h.met o
    obtain ⟨p, rfl, rfl⟩ := h.occurrence hm
    have hin : o.LiesIn p := by
      rcases hn o p ⟨hl, hr⟩ with hin | hin
      · exact hin
      · have hword : p.word = o.word := eq_of_infix hin.infix hsize
        unfold Occurrence.LiesIn Occurrence.stop at hin ⊢
        rw [hword] at hin ⊢
        omega
    exact ⟨p.word, p.start, hm, Nat.le_trans hin.1 hstart, Nat.lt_of_lt_of_le hstop hin.2⟩
  · rintro ⟨u, k, hm, hl, hr⟩
    obtain ⟨p, rfl, rfl⟩ := h.occurrence hm
    exact ⟨p, hl, hr⟩

end Passes

/-- It does not matter in which order the words are told. -/
theorem Cut.sorted {words : List String} {text : List Char} {pieces : List Piece}
    (h : Cut (byLength words) text pieces) : Cut words text pieces where
  reads := h.reads
  taken u hu := (h.taken u hu).imp_left mem_byLength.mp
  met o := h.met ⟨o.word, o.start, mem_byLength.mpr o.word_mem, o.word_ne_empty, o.stands⟩

/-- Masking the longest values first makes one cut of the text. -/
theorem redactAll_cut {values : List Secret} (h : Starless values) (text : String) :
    ∃ pieces, Cut (values.map Secret.expose) text.toList pieces ∧
      (redactAll values text).toList = pieces.flatMap Piece.shown := by
  have hstars : ∀ v ∈ byLength (values.map Secret.expose), '*' ∉ v.toList := by
    intro v hv
    obtain ⟨s, hs, rfl⟩ := List.mem_map.mp (mem_byLength.mp hv)
    exact h s hs
  obtain ⟨pieces, hcut, hshown⟩ := (cut_kept text.toList).passes (shown_kept text.toList).symm
    hstars (byLength_ordered _)
  exact ⟨pieces, hcut.sorted, hshown⟩

/-- A masked text is the text cut into pieces, in which words are masked where values stand and all
other characters are kept. An occurrence that is not masked itself meets one that is, of a value not
shorter; so if occurrences that meet lie one within the other, what is masked are just the positions
that occurrences cover. -/
theorem redaction_cuts {values : List Secret} (h : Starless values) (text : String) :
    let words := values.map Secret.expose
    ∃ pieces : List Piece, pieces.flatMap Piece.read = text.toList ∧
      (redactAll values text).toList = pieces.flatMap Piece.shown ∧
      (∀ u k, MaskedAt u k pieces →
        ∃ o : Occurrence words text.toList, o.word = u ∧ o.start = k) ∧
      (∀ o : Occurrence words text.toList, ∃ p : Occurrence words text.toList,
        MaskedAt p.word p.start pieces ∧ o.Meets p ∧ NotShorter p.word o.word) ∧
      ((∀ o p : Occurrence words text.toList, o.Meets p → o.LiesIn p ∨ p.LiesIn o) →
        ∀ i, Covered words text.toList i ↔ Blotted pieces i) := by
  intro words
  obtain ⟨pieces, hcut, hshown⟩ := redactAll_cut h text
  refine ⟨pieces, hcut.reads, hshown, fun u k hm => hcut.occurrence hm, fun o => ?_,
    fun hn i => hcut.covered_iff hn⟩
  obtain ⟨u, k, hm, hl, hr, hsize⟩ := hcut.met o
  obtain ⟨p, rfl, rfl⟩ := hcut.occurrence hm
  exact ⟨p, hm, ⟨hl, hr⟩, hsize⟩

/-- All occurrences of words in a text, each of them as its word and its start. -/
def occurrences (words : List String) (text : List Char) : List (String × Nat) :=
  words.flatMap fun w =>
    ((List.range text.length).filter fun k => w.toList.isPrefixOf (text.drop k)).map (w, ·)

theorem Occurrence.mem_occurrences {words : List String} {text : List Char}
    (o : Occurrence words text) : (o.word, o.start) ∈ occurrences words text := by
  have hlength := o.stands.length_le
  have hpos := length_pos o.word_ne_empty
  rw [String.length_toList, List.length_drop] at hlength
  have hstart : o.start ∈ (List.range text.length).filter fun k =>
      o.word.toList.isPrefixOf (text.drop k) :=
    List.mem_filter.mpr ⟨List.mem_range.mpr (by omega), List.isPrefixOf_iff_prefix.mpr o.stands⟩
  exact List.mem_flatMap.mpr ⟨o.word, o.word_mem, List.mem_map_of_mem hstart⟩

/-- The longer value goes as a whole, although the shorter one stands in it. -/
theorem nested_cut :
    Starless [⟨"token"⟩, ⟨"token-long"⟩] ∧
    redactAll [⟨"token"⟩, ⟨"token-long"⟩] "token-long, token" = "***, ***" ∧
    ∃ pieces : List Piece, pieces.flatMap Piece.read = "token-long, token".toList ∧
      pieces.flatMap Piece.shown = "***, ***".toList ∧
      ∀ i, Covered ["token", "token-long"] "token-long, token".toList i ↔ Blotted pieces i := by
  have hstars : Starless [⟨"token"⟩, ⟨"token-long"⟩] := by
    unfold Starless
    decide
  have htext : redactAll [⟨"token"⟩, ⟨"token-long"⟩] "token-long, token" = "***, ***" := by
    decide +kernel
  obtain ⟨pieces, hread, hshown, -, -, hcovered⟩ := redaction_cuts hstars "token-long, token"
  have hnested : ∀ a ∈ occurrences ["token", "token-long"] "token-long, token".toList,
      ∀ b ∈ occurrences ["token", "token-long"] "token-long, token".toList,
      a.2 < b.2 + b.1.length ∧ b.2 < a.2 + a.1.length →
      b.2 ≤ a.2 ∧ a.2 + a.1.length ≤ b.2 + b.1.length ∨
        a.2 ≤ b.2 ∧ b.2 + b.1.length ≤ a.2 + a.1.length := by
    decide +kernel
  refine ⟨hstars, htext, pieces, hread, by rw [← hshown, htext], hcovered fun o p hm => ?_⟩
  exact hnested _ o.mem_occurrences _ p.mem_occurrences hm

theorem covered_of_stands {words : List String} {text : List Char} {w : String} {i k : Nat}
    (hm : w ∈ words) (hne : w ≠ "") (hw : w.toList <+: text.drop k) (hl : k ≤ i)
    (hr : i < k + w.length) : Covered words text i :=
  ⟨⟨w, k, hm, hne, hw⟩, hl, hr⟩

/-- Where a value stands twice with a letter in common, the second time its end is left. All of this
text is covered, so that nothing but masks should be shown of it. -/
theorem overlap_survives :
    Starless [⟨"aba"⟩] ∧ redactAll [⟨"aba"⟩] "ababa" = "***ba" ∧
    (∀ i < 5, Covered ["aba"] "ababa".toList i) ∧
    ∀ copies, (redactAll [⟨"aba"⟩] "ababa").toList ≠
      (List.replicate copies mask.toList).flatten := by
  have htext : redactAll [⟨"aba"⟩] "ababa" = "***ba" := by decide +kernel
  refine ⟨by unfold Starless; decide, htext, fun i hi => ?_, fun copies h => ?_⟩
  · have hword : "aba" ∈ ["aba"] := List.mem_singleton_self "aba"
    have hlength : "aba".length = 3 := by decide +kernel
    by_cases hfront : i < 3
    · exact covered_of_stands (k := 0) hword (by decide) (by decide) (by omega) (by omega)
    · exact covered_of_stands (k := 2) hword (by decide) (by decide) (by omega) (by omega)
  · have hb : 'b' ∈ (List.replicate copies mask.toList).flatten := by
      rw [← h, htext]
      decide
    obtain ⟨piece, hp, hb⟩ := List.mem_flatten.mp hb
    rw [List.eq_of_mem_replicate hp] at hb
    revert hb
    decide

end ReleaseJob.Proofs
