import ReleaseJob.Proofs.Masking

namespace ReleaseJob.Proofs
open Redaction

def joinLines (lines : List String) : String := "\n".intercalate lines

def breaks (text : String) : Nat := text.toList.count '\n'

/-- No line holds a line break. -/
def Unbroken (lines : List String) : Prop := ∀ line ∈ lines, '\n' ∉ line.toList

section Pass

variable {n x : Char} {ns w a b text : List Char}

/-- A word that does not hold a character cannot reach beyond it. -/
theorem prefix_append_cons (hx : x ∉ w) : w <+: a ++ x :: b ↔ w <+: a := by
  induction w generalizing a with
  | nil => simp
  | cons c w ih =>
    obtain ⟨hc, hw⟩ := not_or.mp (List.mem_cons.not.mp hx)
    cases a with
    | nil =>
      refine iff_of_false (fun h => ?_) (fun h => ?_)
      · exact hc (List.cons_prefix_cons.mp h).1.symm
      · exact List.cons_ne_nil _ _ (List.prefix_nil.mp h)
    | cons d a => rw [List.cons_append, List.cons_prefix_cons, List.cons_prefix_cons, ih hw]

theorem maskAll_append_cons (hx : x ∉ n :: ns) :
    maskAll n ns (a ++ x :: b) = maskAll n ns a ++ x :: maskAll n ns b := by
  have hfront (a : List Char) :
      (n :: ns).isPrefixOf (a ++ x :: b) = true ↔ (n :: ns).isPrefixOf a = true := by
    rw [List.isPrefixOf_iff_prefix, List.isPrefixOf_iff_prefix, prefix_append_cons hx]
  fun_induction maskAll n ns a with
  | case1 =>
    have hno : ¬(n :: ns).isPrefixOf (x :: b) = true := fun h => by cases (hfront []).mp h
    rw [List.nil_append, maskAll, if_neg hno, List.nil_append]
  | case2 c rest hmatch ih =>
    have hlength : ns.length ≤ rest.length :=
      Nat.le_of_succ_le_succ (List.isPrefixOf_iff_prefix.mp hmatch).length_le
    have hfound := (hfront (c :: rest)).mpr hmatch
    rw [List.cons_append] at hfound ⊢
    rw [maskAll, if_pos hfound, List.drop_append_of_le_length hlength, ih, List.append_assoc]
  | case3 c rest hno ih =>
    have hno := (hfront (c :: rest)).not.mpr hno
    rw [List.cons_append] at hno ⊢
    rw [maskAll, if_neg hno, ih, List.cons_append]

theorem count_mask (hx : x ≠ '*') (text : List Char) :
    (mask.toList ++ text).count x = text.count x := by
  have hmask : mask.toList.count x = 0 := by
    refine List.count_eq_zero.mpr fun h => hx ?_
    simpa [mask] using h
  rw [List.count_append, hmask, Nat.zero_add]

/-- A pass adds no character but stars, and where it masks a word the characters of it are lost. -/
theorem count_maskAll (hx : x ≠ '*') :
    (maskAll n ns text).count x ≤ text.count x ∧
      (x ∈ n :: ns → (maskAll n ns text).count x = text.count x → maskAll n ns text = text) := by
  fun_induction maskAll n ns text with
  | case1 => exact ⟨Nat.le_refl _, fun _ _ => rfl⟩
  | case2 c rest hmatch ih =>
    obtain ⟨after, hafter⟩ := List.isPrefixOf_iff_prefix.mp hmatch
    have hrest : rest.drop ns.length = after := by
      obtain ⟨-, rfl⟩ := List.cons.inj hafter
      exact List.drop_left
    have hcount : (c :: rest).count x = (n :: ns).count x + after.count x := by
      rw [← hafter, List.count_append]
    rw [hrest] at ih ⊢
    rw [count_mask hx, hcount]
    refine ⟨Nat.le_trans ih.1 (Nat.le_add_left _ _), fun hm hsame => ?_⟩
    have hlost := List.count_pos_iff.mpr hm
    have hle := ih.1
    omega
  | case3 c rest hno ih =>
    rw [List.count_cons, List.count_cons]
    refine ⟨Nat.add_le_add_right ih.1 _, fun hm hsame => ?_⟩
    rw [ih.2 hm (Nat.add_right_cancel hsame)]

end Pass

section Values

variable {v text : String} {lines l : List String}

theorem joinLines_cons {line : String} (h : lines ≠ []) :
    (joinLines (line :: lines)).toList = line.toList ++ '\n' :: (joinLines lines).toList := by
  obtain ⟨next, rest, rfl⟩ := List.exists_cons_of_ne_nil h
  rw [joinLines, String.intercalate_cons_cons, String.toList_append, String.toList_append,
    List.append_assoc]
  rfl

theorem breaks_joinLines (h : Unbroken lines) : breaks (joinLines lines) = lines.length - 1 := by
  induction lines with
  | nil => rfl
  | cons line rest ih =>
    have hline : line.toList.count '\n' = 0 := List.count_eq_zero.mpr (h line List.mem_cons_self)
    by_cases hr : rest = []
    · subst hr
      rw [breaks, joinLines, String.intercalate_singleton, hline]
      rfl
    · have hrest := ih fun l hl => h l (List.mem_cons_of_mem _ hl)
      have hpos := List.length_pos_iff.mpr hr
      unfold breaks at hrest ⊢
      rw [joinLines_cons hr, List.count_append, hline, List.count_cons_self, hrest, List.length_cons]
      omega

/-- Masks hold no line break, so masking can only take breaks away. -/
theorem breaks_maskValue (v text : String) : breaks (maskValue v text) ≤ breaks text := by
  unfold breaks maskValue
  split
  · exact Nat.le_refl _
  · rw [String.toList_ofList]
    exact (count_maskAll (by decide)).1

/-- A value with a line break that occurs in a text takes a break away when it is masked. -/
theorem maskValue_of_breaks (hv : '\n' ∈ v.toList)
    (h : breaks (maskValue v text) = breaks text) : maskValue v text = text := by
  unfold breaks maskValue at *
  split at h
  · rfl
  · next n ns hword =>
    rw [String.toList_ofList] at h
    rw [(count_maskAll (by decide)).2 (hword ▸ hv) h, String.ofList_toList]

theorem Unbroken.map {f : String → String} (h : Unbroken lines)
    (hf : ∀ line, breaks (f line) ≤ breaks line) : Unbroken (lines.map f) := by
  intro line hline
  obtain ⟨old, hold, rfl⟩ := List.mem_map.mp hline
  have hnone : breaks old = 0 := List.count_eq_zero.mpr (h old hold)
  exact List.count_eq_zero.mp (Nat.le_zero.mp (hnone ▸ hf old))

/-- A value without a line break is masked in each line by itself. -/
theorem maskValue_joinLines (hv : '\n' ∉ v.toList) (lines : List String) :
    maskValue v (joinLines lines) = joinLines (lines.map (maskValue v)) := by
  unfold maskValue
  split
  · rw [List.map_id']
  · next n ns hword =>
    rw [hword] at hv
    induction lines with
    | nil => simp [joinLines, maskAll]
    | cons line rest ih =>
      rw [← String.toList_inj, String.toList_ofList] at ih ⊢
      by_cases hr : rest = []
      · subst hr
        simp [joinLines]
      · rw [joinLines_cons hr, maskAll_append_cons hv, ih, List.map_cons,
          joinLines_cons (List.map_eq_nil_iff.not.mpr hr), String.toList_ofList]

/-- So is one that takes no line break out of the text. -/
theorem maskValue_lines (hl : Unbroken lines)
    (h : breaks (maskValue v (joinLines lines)) = breaks (joinLines lines)) :
    maskValue v (joinLines lines) = joinLines (lines.map (maskValue v)) := by
  by_cases hv : '\n' ∈ v.toList
  · have hline : ∀ line ∈ lines, maskValue v line = line := by
      intro line hline
      refine maskValue_untouched fun ⟨_, hi⟩ => hl line hline ?_
      exact hi.subset hv
    rw [maskValue_of_breaks hv h, List.map_congr_left hline, List.map_id']
  · exact maskValue_joinLines hv lines

/-- A word that stands in no line stands nowhere in the text of the lines. -/
theorem joinLines_clean {v : Secret} (hn : '\n' ∉ v.expose.toList) (hv : '*' ∉ v.expose.toList)
    (h : ∀ line ∈ lines, ¬v.OccursIn line) : ¬v.OccursIn (joinLines lines) := by
  rintro ⟨hne, hi⟩
  have hpass := maskValue_joinLines hn lines
  rw [List.map_congr_left fun line hl => maskValue_untouched (h line hl), List.map_id'] at hpass
  have hclean : ¬v.expose.toList <:+: (maskValue v.expose (joinLines lines)).toList :=
    maskValue_clean hne hv
  rw [hpass] at hclean
  exact hclean hi

/-- What passes one after the other make of a text. -/
theorem breaks_passes (l : List String) (text : String) :
    breaks (l.foldl (fun t v => maskValue v t) text) ≤ breaks text := by
  induction l generalizing text with
  | nil => exact Nat.le_refl _
  | cons v rest ih => exact Nat.le_trans (ih _) (breaks_maskValue v text)

/-- Values without a line break are masked in each line by itself. -/
theorem passes_joinLines (hl : ∀ v ∈ l, '\n' ∉ v.toList) (lines : List String) :
    l.foldl (fun t v => maskValue v t) (joinLines lines) =
      joinLines (lines.map fun line => l.foldl (fun t v => maskValue v t) line) := by
  induction l generalizing lines with
  | nil => simp
  | cons v rest ih =>
    rw [List.foldl_cons, maskValue_joinLines (hl v List.mem_cons_self),
      ih fun u hu => hl u (List.mem_cons_of_mem _ hu), List.map_map]
    rfl

theorem passes_lines (hl : Unbroken lines)
    (h : breaks (l.foldl (fun t v => maskValue v t) (joinLines lines)) =
      breaks (joinLines lines)) :
    l.foldl (fun t v => maskValue v t) (joinLines lines) =
      joinLines (lines.map fun line => l.foldl (fun t v => maskValue v t) line) := by
  induction l generalizing lines with
  | nil => simp
  | cons v rest ih =>
    rw [List.foldl_cons] at h ⊢
    have hlast := breaks_passes rest (maskValue v (joinLines lines))
    have hfirst := breaks_maskValue v (joinLines lines)
    have hpass := maskValue_lines (v := v) hl (by omega)
    rw [hpass] at h hfirst hlast ⊢
    rw [ih (hl.map (breaks_maskValue v)) (by omega), List.map_map]
    rfl

end Values

variable {values : List Secret} {lines : List String}

/-- Values without line breaks are masked in a text as they are in its lines. -/
theorem redactAll_joinLines (hv : ∀ v ∈ values, '\n' ∉ v.expose.toList) (lines : List String) :
    redactAll values (joinLines lines) = joinLines (lines.map (redactAll values)) := by
  refine passes_joinLines (fun v hm => ?_) lines
  obtain ⟨s, hs, rfl⟩ := List.mem_map.mp (mem_byLength.mp hm)
  exact hv s hs

/-- Whatever the values, a text is masked as its lines are if and only if it keeps its line breaks. -/
theorem redactAll_lines_iff (h : Unbroken lines) :
    redactAll values (joinLines lines) = joinLines (lines.map (redactAll values)) ↔
      breaks (redactAll values (joinLines lines)) = lines.length - 1 := by
  rw [← breaks_joinLines h]
  refine ⟨fun he => ?_, fun he => passes_lines h he⟩
  have hmasked : Unbroken (lines.map (redactAll values)) := h.map (breaks_passes _)
  rw [he, breaks_joinLines h, breaks_joinLines hmasked, List.length_map]

end ReleaseJob.Proofs
