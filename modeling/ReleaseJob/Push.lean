namespace ReleaseJob

structure Push where
  reference : String
  repository : String
  commit : Option String

def stripHead : (head text : List Char) → Option (List Char)
  | [], text => some text
  | _ :: _, [] => none
  | h :: hs, c :: cs => if h = c then stripHead hs cs else none

theorem stripHead_eq_some_iff {head text rest : List Char} :
    stripHead head text = some rest ↔ text = head ++ rest := by
  induction head generalizing text with
  | nil => simp [stripHead, eq_comm]
  | cons h hs ih =>
    cases text with
    | nil => simp [stripHead]
    | cons c cs =>
      by_cases hc : h = c
      · simp [stripHead, hc, ih]
      · simp [stripHead, hc, Ne.symm hc]

/-- A reference under `refs/tags/` names the tag that follows, any other reference under `refs/`
names none, and a bare name is itself a tag name. A tag name is never empty. -/
def tagName? (reference : String) : Option String :=
  match stripHead "refs/tags/".toList reference.toList with
  | some [] => none
  | some name => some (String.ofList name)
  | none =>
    if reference.isEmpty || (stripHead "refs/".toList reference.toList).isSome then none
    else some reference

def Push.tagName? (p : Push) : Option String :=
  ReleaseJob.tagName? p.reference

structure ReleaseTag where
  name : String
  version : String
  deriving DecidableEq

/-- The version is the tag name without one leading `v`. -/
def ReleaseTag.ofName (name : String) : ReleaseTag :=
  ⟨name, match name.toList with
    | 'v' :: version => String.ofList version
    | _ => name⟩

end ReleaseJob
