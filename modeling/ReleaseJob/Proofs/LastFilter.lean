import Mathlib.Data.List.Induction
import ReleaseJob.Proofs.Acceptance

namespace ReleaseJob

def Trigger.Fires (t : Trigger) (p : Push) : Prop := ∃ tag, t.fire? p = some tag

namespace Proofs

section Names

variable {reference name : String}

def Under (head reference : String) : Prop := head.toList <+: reference.toList

instance (head reference : String) : Decidable (Under head reference) :=
  inferInstanceAs (Decidable (_ <+: _))

/-- A reference without the `refs/tags/` that may stand before it. -/
def shortName (reference : String) : String :=
  match stripHead "refs/tags/".toList reference.toList with
  | some name => String.ofList name
  | none => reference

theorem stripHead_isSome {head text : List Char} : (stripHead head text).isSome ↔ head <+: text := by
  rw [Option.isSome_iff_exists]
  exact exists_congr fun rest => stripHead_eq_some_iff.trans eq_comm

theorem stripHead_tags (name : String) :
    stripHead "refs/tags/".toList ("refs/tags/" ++ name).toList = some name.toList :=
  stripHead_eq_some_iff.mpr String.toList_append

theorem stripHead_bare (h : ¬Under "refs/tags/" reference) :
    stripHead "refs/tags/".toList reference.toList = none :=
  Option.not_isSome_iff_eq_none.mp (stripHead_isSome.not.mpr h)

theorem shortName_tags (name : String) : shortName ("refs/tags/" ++ name) = name := by
  rw [shortName, stripHead_tags]
  exact String.ofList_toList

theorem shortName_bare (h : ¬Under "refs/tags/" reference) : shortName reference = reference := by
  rw [shortName, stripHead_bare h]

/-- The name of a tag is all that follows, slashes included. -/
theorem under_tags_iff : Under "refs/tags/" reference ↔ ∃ name, reference = "refs/tags/" ++ name := by
  constructor
  · rintro ⟨rest, hrest⟩
    exact ⟨String.ofList rest, by rw [← String.toList_inj, ← hrest]; simp⟩
  · rintro ⟨name, rfl⟩
    exact ⟨name.toList, String.toList_append.symm⟩

theorem tagName?_under_tags {rest : String} :
    tagName? ("refs/tags/" ++ rest) = some name ↔ rest = name ∧ name ≠ "" := by
  rw [tagName?, stripHead_tags]
  split
  · next h =>
    obtain rfl := String.toList_eq_nil_iff.mp (Option.some.inj h)
    refine iff_of_false nofun ?_
    rintro ⟨rfl, hne⟩
    exact hne rfl
  · next text hne h =>
    obtain rfl : rest.toList = text := Option.some.inj h
    rw [String.ofList_toList, Option.some.injEq]
    refine iff_self_and.mpr ?_
    rintro rfl rfl
    exact hne rfl
  · next h => cases h

theorem tagName?_bare (h : ¬Under "refs/tags/" reference) : tagName? reference = some name ↔
    reference = name ∧ name ≠ "" ∧ ¬Under "refs/" reference := by
  have hno : (reference.isEmpty || (stripHead "refs/".toList reference.toList).isSome) = true ↔
      reference = "" ∨ Under "refs/" reference := by
    rw [Bool.or_eq_true, String.isEmpty_iff, stripHead_isSome]
    rfl
  rw [tagName?, stripHead_bare h]
  constructor
  · intro hname
    dsimp only at hname
    split at hname
    · cases hname
    · next hnot =>
      cases hname
      exact ⟨rfl, not_or.mp (hno.not.mp hnot)⟩
  · rintro ⟨rfl, hnot⟩
    exact if_neg (hno.not.mpr (not_or.mpr hnot))

/-- A reference under `refs/` names a tag only if it is under `refs/tags/`. -/
theorem tagName?_eq_some_iff : tagName? reference = some name ↔
    shortName reference = name ∧ name ≠ "" ∧
      (Under "refs/" reference → Under "refs/tags/" reference) := by
  by_cases ht : Under "refs/tags/" reference
  · obtain ⟨rest, rfl⟩ := under_tags_iff.mp ht
    rw [shortName_tags, tagName?_under_tags]
    simp [ht]
  · rw [shortName_bare ht, tagName?_bare ht]
    simp [ht]

theorem tagName?_tags (h : ¬Under "refs/" name) :
    tagName? ("refs/tags/" ++ name) = tagName? name := by
  have ht : ¬Under "refs/tags/" name := fun hu => h ((List.prefix_append _ _).trans hu)
  ext tag
  rw [tagName?_eq_some_iff, tagName?_eq_some_iff, shortName_tags, shortName_bare ht]
  have hunder : Under "refs/tags/" ("refs/tags/" ++ name) := under_tags_iff.mpr ⟨name, rfl⟩
  simp [h, hunder]

end Names

section Filters

variable {t more : Trigger} {p : Push} {name glob : String} {g : TagPattern}
  {patterns : List TagPattern} {globs : List String}

/-- The verdict on the filters before it counts only where the last filter does not match. -/
theorem decides_concat (included : Bool) (patterns : List TagPattern) (g : TagPattern) :
    Trigger.decides name included (patterns ++ [g]) =
      if g.accepts name then !g.negated else Trigger.decides name included patterns := by
  induction patterns generalizing included with
  | nil => rfl
  | cons q rest ih => exact ih _

/-- There is a filter that lets the name in, and none of those behind it matches. -/
def LastAdmits (name : String) (patterns : List TagPattern) : Prop :=
  ∃ front g back, patterns = front ++ g :: back ∧ g.accepts name = true ∧ g.negated = false ∧
    ∀ q ∈ back, q.accepts name = false

theorem lastAdmits_concat : LastAdmits name (patterns ++ [g]) ↔
    if g.accepts name then g.negated = false else LastAdmits name patterns := by
  constructor
  · rintro ⟨front, q, back, hsplit, hq, hn, hback⟩
    rcases List.eq_nil_or_concat back with rfl | ⟨back, last, rfl⟩
    · obtain ⟨-, hlast⟩ := List.append_inj' hsplit rfl
      obtain rfl := List.singleton_inj.mp hlast
      rw [if_pos hq]
      exact hn
    · rw [List.concat_eq_append, ← List.cons_append, ← List.append_assoc] at hsplit
      obtain ⟨rfl, hlast⟩ := List.append_inj' hsplit rfl
      obtain rfl := List.singleton_inj.mp hlast
      have hg := hback g (by simp)
      rw [hg, if_neg Bool.false_ne_true]
      exact ⟨front, q, back, rfl, hq, hn, fun r hr => hback r (by simp [hr])⟩
  · intro h
    split at h
    · next hg => exact ⟨patterns, g, [], rfl, hg, h, nofun⟩
    · next hg =>
      obtain ⟨front, q, back, rfl, hq, hn, hback⟩ := h
      refine ⟨front, q, back ++ [g], by simp, hq, hn, fun r hr => ?_⟩
      rcases List.mem_append.mp hr with hr | hr
      · exact hback r hr
      · exact List.mem_singleton.mp hr ▸ Bool.not_eq_true _ ▸ hg

/-- The scan carries one verdict along; the condition names the filter that gave it. -/
theorem decides_iff : Trigger.decides name false patterns = true ↔ LastAdmits name patterns := by
  -- from behind, where the last filter stands
  induction patterns using List.reverseRecOn with
  | nil => exact iff_of_false Bool.false_ne_true (by simp [LastAdmits])
  | append_singleton rest g ih =>
    rw [decides_concat, lastAdmits_concat]
    split
    · simp
    · exact ih

theorem fire?_eq_some_iff {tag : ReleaseTag} : t.fire? p = some tag ↔
    ∃ name, p.tagName? = some name ∧ LastAdmits name t.patterns ∧ tag = .ofName name := by
  rw [Trigger.fire?, Option.bind_eq_bind, Option.bind_eq_some_iff]
  refine exists_congr fun name => and_congr_right fun _ => ?_
  rw [← decides_iff]
  split
  · next h => simp [h, eq_comm]
  · next h => simp [h]

theorem fires_iff : t.Fires p ↔ ∃ name, p.tagName? = some name ∧ LastAdmits name t.patterns := by
  constructor
  · rintro ⟨tag, h⟩
    obtain ⟨name, hname, hlast, -⟩ := fire?_eq_some_iff.mp h
    exact ⟨name, hname, hlast⟩
  · rintro ⟨name, hname, hlast⟩
    exact ⟨.ofName name, fire?_eq_some_iff.mpr ⟨name, hname, hlast, rfl⟩⟩

theorem fires_named (hn : p.tagName? = some name) : t.Fires p ↔ LastAdmits name t.patterns := by
  rw [fires_iff, hn]
  simp

/-- A filter behind the others has the last word on what it matches, and none on anything else. -/
theorem fires_concat (hm : more.patterns = t.patterns ++ [g]) (hn : p.tagName? = some name) :
    more.Fires p ↔ if g.accepts name then g.negated = false else t.Fires p := by
  rw [fires_named hn, fires_named hn, hm, lastAdmits_concat]

/-- A trigger keeps its filters in their order, and one that does not parse leaves no trigger. -/
theorem ofGlobs_ok : Trigger.ofGlobs globs = .ok t ↔
    List.Forall₂ (fun glob g => TagPattern.parse glob = .ok g) globs t.patterns := by
  unfold Trigger.ofGlobs
  simp only [bind_ok, mapM_ok, mapError_ok]
  constructor
  · rintro ⟨patterns, hp, ht⟩
    split at ht
    · cases ht
    · cases ht
      exact hp
  · exact fun h => ⟨t.patterns, h, dif_neg t.patterns_ne_nil⟩

theorem ofGlobs_concat (ht : Trigger.ofGlobs globs = .ok t) (hg : TagPattern.parse glob = .ok g) :
    ∃ more, Trigger.ofGlobs (globs ++ [glob]) = .ok more ∧ more.patterns = t.patterns ++ [g] :=
  ⟨⟨t.patterns ++ [g], by simp⟩,
    ofGlobs_ok.mpr (List.rel_append (ofGlobs_ok.mp ht) (.cons hg .nil)), rfl⟩

theorem parse_exclusion {body : List Char} (h : glob.toList = '!' :: body) :
    TagPattern.parse glob = (TagPattern.parseBody body).map (⟨glob, true, ·⟩) := by
  simp only [TagPattern.parse, h]

theorem parse_inclusion (h : glob.toList.head? ≠ some '!') :
    TagPattern.parse glob = (TagPattern.parseBody glob.toList).map (⟨glob, false, ·⟩) := by
  unfold TagPattern.parse
  split
  · next hg =>
    rw [hg] at h
    exact absurd rfl h
  · rfl

theorem map_ok {f : α → β} {x : Except ε α} {b : β} : x.map f = .ok b ↔ ∃ a, x = .ok a ∧ f a = b := by
  cases x <;> simp [Except.map]

/-- The exclusion of a filter matches what the filter matches. -/
theorem parse_negate (h : glob.toList.head? ≠ some '!') (hg : TagPattern.parse glob = .ok g) :
    g.negated = false ∧
      TagPattern.parse ("!" ++ glob) = .ok { g with glob := "!" ++ glob, negated := true } := by
  rw [parse_inclusion h, map_ok] at hg
  obtain ⟨items, hitems, rfl⟩ := hg
  refine ⟨rfl, ?_⟩
  have hbang : ("!" ++ glob).toList = '!' :: glob.toList := String.toList_append
  rw [parse_exclusion hbang, hitems]
  rfl

theorem negated_of_exclusion (h : glob.toList.head? = some '!') (hg : TagPattern.parse glob = .ok g) :
    g.negated = true := by
  obtain ⟨body, hbody⟩ := List.head?_eq_some_iff.mp h
  rw [parse_exclusion hbody, map_ok] at hg
  obtain ⟨items, -, rfl⟩ := hg
  rfl

theorem negated_of_exclusions
    (hp : List.Forall₂ (fun glob g => TagPattern.parse glob = .ok g) globs patterns)
    (h : ∀ glob ∈ globs, glob.toList.head? = some '!') : ∀ g ∈ patterns, g.negated = true := by
  induction hp with
  | nil => nofun
  | cons hparse _ ih =>
    obtain ⟨hfirst, hrest⟩ := List.forall_mem_cons.mp h
    exact List.forall_mem_cons.mpr ⟨negated_of_exclusion hfirst hparse, ih hrest⟩

/-- A filter behind the others adds the names that it matches, and its exclusion takes them away. -/
theorem added_filter (ht : Trigger.ofGlobs globs = .ok t) (hn : glob.toList.head? ≠ some '!')
    (hg : TagPattern.parse glob = .ok g) :
    ∃ more fewer, Trigger.ofGlobs (globs ++ [glob]) = .ok more ∧
      Trigger.ofGlobs (globs ++ ["!" ++ glob]) = .ok fewer ∧
      ∀ p name, p.tagName? = some name →
        (more.Fires p ↔ t.Fires p ∨ g.accepts name = true) ∧
        (fewer.Fires p ↔ t.Fires p ∧ g.accepts name = false) := by
  obtain ⟨hpositive, hbang⟩ := parse_negate hn hg
  obtain ⟨more, hmore, hmp⟩ := ofGlobs_concat ht hg
  obtain ⟨fewer, hfewer, hfp⟩ := ofGlobs_concat ht hbang
  refine ⟨more, fewer, hmore, hfewer, fun p name hname => ?_⟩
  have haccepts : TagPattern.accepts { g with glob := "!" ++ glob, negated := true } name =
      g.accepts name := rfl
  rw [fires_concat hmp hname, fires_concat hfp hname, haccepts]
  cases g.accepts name <;> simp [hpositive]

/-- Exclusions only take names out, and nothing was let in. -/
theorem exclusions_never_fire (ht : Trigger.ofGlobs globs = .ok t)
    (h : ∀ glob ∈ globs, glob.toList.head? = some '!') (p : Push) : ¬t.Fires p := by
  rw [fires_iff]
  rintro ⟨name, -, front, g, back, hsplit, -, hpositive, -⟩
  have hg : g ∈ t.patterns := hsplit ▸ List.mem_append_right _ List.mem_cons_self
  rw [negated_of_exclusions (ofGlobs_ok.mp ht) h g hg] at hpositive
  cases hpositive

theorem fire?_tags {q : Push} (hp : ¬Under "refs/" p.reference)
    (hq : q.reference = "refs/tags/" ++ p.reference) (t : Trigger) : t.fire? q = t.fire? p := by
  have hname : q.tagName? = p.tagName? := by
    rw [Push.tagName?, hq]
    exact tagName?_tags hp
  rw [Trigger.fire?, hname]
  rfl

theorem never_fires_elsewhere (hr : Under "refs/" p.reference)
    (ht : ¬Under "refs/tags/" p.reference) (t : Trigger) : ¬t.Fires p := by
  rw [fires_iff]
  rintro ⟨name, hname, -⟩
  obtain ⟨-, -, hunder⟩ := tagName?_eq_some_iff.mp hname
  exact ht (hunder hr)

theorem ofName_version (name : String) :
    name = "v" ++ (ReleaseTag.ofName name).version ∨
      name.toList.head? ≠ some 'v' ∧ (ReleaseTag.ofName name).version = name := by
  unfold ReleaseTag.ofName
  split
  · next rest hname =>
    refine .inl ?_
    rw [← String.toList_inj, hname]
    simp
  · next hno =>
    refine .inr ⟨fun h => ?_, rfl⟩
    obtain ⟨rest, hrest⟩ := List.head?_eq_some_iff.mp h
    exact hno rest hrest

/-- The tag goes by the whole name; only the version does without the `v`. -/
theorem fired_tag {tag : ReleaseTag} (h : t.fire? p = some tag) :
    tag.name = shortName p.reference ∧ (tag.name = "v" ++ tag.version ∨
      tag.name.toList.head? ≠ some 'v' ∧ tag.version = tag.name) := by
  obtain ⟨name, hname, -, rfl⟩ := fire?_eq_some_iff.mp h
  obtain ⟨hshort, -⟩ := tagName?_eq_some_iff.mp hname
  exact ⟨hshort.symm, ofName_version name⟩

end Filters

/-- The last filter that matches the name of a tag decides about it. So a filter that is added lets in
what it matches besides what was let in before, its exclusion only keeps that out, and exclusions
alone let nothing in. The name may stand for itself or behind `refs/tags/`, and behind no other
`refs/`; what fires is the tag of this name. -/
theorem last_filter_decides :
    (∀ t p, Trigger.Fires t p ↔
      ∃ name, p.tagName? = some name ∧ LastAdmits name t.patterns) ∧
    (∀ globs t glob g, Trigger.ofGlobs globs = .ok t → glob.toList.head? ≠ some '!' →
      TagPattern.parse glob = .ok g →
      ∃ more fewer, Trigger.ofGlobs (globs ++ [glob]) = .ok more ∧
        Trigger.ofGlobs (globs ++ ["!" ++ glob]) = .ok fewer ∧
        ∀ p name, p.tagName? = some name →
          (more.Fires p ↔ t.Fires p ∨ g.accepts name = true) ∧
          (fewer.Fires p ↔ t.Fires p ∧ g.accepts name = false)) ∧
    (∀ globs t, Trigger.ofGlobs globs = .ok t → (∀ glob ∈ globs, glob.toList.head? = some '!') →
      ∀ p, ¬t.Fires p) ∧
    (∀ (t : Trigger) p q, ¬Under "refs/" p.reference →
      q.reference = "refs/tags/" ++ p.reference → t.fire? q = t.fire? p) ∧
    (∀ (t : Trigger) p, Under "refs/" p.reference → ¬Under "refs/tags/" p.reference →
      ¬t.Fires p) ∧
    ∀ (t : Trigger) p tag, t.fire? p = some tag →
      tag.name = shortName p.reference ∧ (tag.name = "v" ++ tag.version ∨
        tag.name.toList.head? ≠ some 'v' ∧ tag.version = tag.name) :=
  ⟨fun _ _ => fires_iff, fun _ _ _ _ ht hn hg => added_filter ht hn hg,
    fun _ _ ht h p => exclusions_never_fire ht h p, fun t _ _ hp hq => fire?_tags hp hq t,
    fun t _ hr ht => never_fires_elsewhere hr ht t, fun _ _ _ h => fired_tag h⟩

/-- The tag of an early version, as a bare name. -/
def hotfix : Push := ⟨"v0.9", "https://example.com/relay.git", none⟩

/-- One tag, taken out and let in again by the filters behind. -/
theorem hotfix_decided : ∃ t more fewer, Trigger.ofGlobs ["v*", "!v0*"] = .ok t ∧
    Trigger.ofGlobs ["v*", "!v0*", "v0.9"] = .ok more ∧
    Trigger.ofGlobs ["v*", "!v0*", "!v0.9"] = .ok fewer ∧
    ¬t.Fires hotfix ∧ more.Fires hotfix ∧ ¬fewer.Fires hotfix ∧
    more.fire? { hotfix with reference := "refs/tags/v0.9" } = more.fire? hotfix := by
  obtain ⟨-, hadded, -, hbare, -⟩ := last_filter_decides
  have hbefore : (Trigger.ofGlobs ["v*", "!v0*"]).toOption.map (·.fire? hotfix) = some none := by
    decide +kernel
  have hmatches : (TagPattern.parse "v0.9").toOption.map (·.accepts "v0.9") = some true := by
    decide +kernel
  cases ht : Trigger.ofGlobs ["v*", "!v0*"] with
  | error =>
    rw [ht] at hbefore
    cases hbefore
  | ok t =>
    cases hg : TagPattern.parse "v0.9" with
    | error =>
      rw [hg] at hmatches
      cases hmatches
    | ok g =>
      rw [ht] at hbefore
      rw [hg] at hmatches
      have hnone : t.fire? hotfix = none := Option.some.inj hbefore
      have hout : ¬t.Fires hotfix := by simp [Trigger.Fires, hnone]
      obtain ⟨more, fewer, hmore, hfewer, hboth⟩ := hadded _ t "v0.9" g ht (by decide) hg
      obtain ⟨hm, hf⟩ := hboth hotfix "v0.9" (by decide)
      exact ⟨t, more, fewer, rfl, hmore, hfewer, hout, hm.mpr (.inr (Option.some.inj hmatches)),
        fun h => hout (hf.mp h).1, hbare more _ _ (by decide) rfl⟩

end Proofs

end ReleaseJob
