import Mathlib.Data.List.Infix
import ReleaseJob.History.Store
import ReleaseJob.Proofs.Filed

namespace ReleaseJob.Proofs

open History

/-- Every id is saved under one pipeline. -/
def OneName (saves : List Summary) : Prop :=
  ∀ a ∈ saves, ∀ b ∈ saves, a.id = b.id → a.pipeline = b.pipeline

/-- No two runs that are stored under one pipeline started together. -/
def Apart (saves : List Summary) : Prop :=
  ∀ a ∈ saves, ∀ b ∈ saves, latest saves a.id = some a → latest saves b.id = some b →
    a.pipeline = b.pipeline → a.started = b.started → a.id = b.id

instance (saves : List Summary) : Decidable (OneName saves) :=
  inferInstanceAs (Decidable (∀ a ∈ saves, ∀ b ∈ saves, a.id = b.id → a.pipeline = b.pipeline))

instance (saves : List Summary) : Decidable (Apart saves) :=
  inferInstanceAs (Decidable (∀ a ∈ saves, ∀ b ∈ saves, latest saves a.id = some a →
    latest saves b.id = some b → a.pipeline = b.pipeline → a.started = b.started → a.id = b.id))

variable {saves : List Summary}

/-- Two ways to file the runs under their last names are one, if those of a name start apart. -/
theorem filed_lists_eq (hapart : Apart saves) {list list' : String → List Summary}
    {names names' : List String} (h : Filed saves (lastName saves) list names)
    (h' : Filed saves (lastName saves) list' names') (p : String) : list p = list' p := by
  apply ((h.list_perm p).trans (h'.list_perm p).symm).eq_of_pairwise ?_ (h.ordered p) (h'.ordered p)
  intro a b ha hb hab hba
  obtain ⟨ha, hap⟩ := h.mem_iff.mp ha
  obtain ⟨hb, hbp⟩ := h'.mem_iff.mp hb
  have hla := mem_ledger_iff.mp ha
  have hlb := mem_ledger_iff.mp hb
  have hid := hapart a (mem_of_latest hla) b (mem_of_latest hlb) hla hlb (hap.trans hbp.symm)
    (started_eq_of_notOlder hab hba)
  rw [hid, hlb] at hla
  exact (Option.some.inj hla).symm

/-- An id that keeps its pipeline is filed alike by its first save and by its last. -/
theorem firstName_eq_lastName (h : OneName saves) (id : RunId) :
    firstName saves id = lastName saves id := by
  cases hs : latest saves id with
  | none => rw [firstName, lastName, first_eq_none_iff.mpr hs, hs]
  | some s =>
    have hfirst : (first saves id).isSome = true := by rw [first_isSome, hs, Option.isSome_some]
    obtain ⟨r, hr⟩ := Option.isSome_iff_exists.mp hfirst
    obtain ⟨hmem, hid⟩ := mem_of_first hr
    have hname := h r hmem s (mem_of_latest hs) (hid.trans (id_of_latest hs).symm)
    simp [firstName, lastName, hr, hs, hname]

section Replies

variable {σ τ : Type} {st : Store σ} {st' : Store τ}

def saved? : Request → Option Summary
  | .save s => some s
  | _ => none

def savesOf (requests : List Request) : List Summary := requests.filterMap saved?

theorem foldl_after (st : Store σ) (s : σ) (requests : List Request) :
    requests.foldl st.after s = (savesOf requests).foldl st.save s := by
  induction requests generalizing s with
  | nil => rfl
  | cons r rest ih => cases r <;> exact ih _

/-- Two stores reply alike if each reply is the same after the same requests. -/
theorem repliesFrom_eq {s : σ} {t : τ} {requests : List Request}
    (h : ∀ done r, done ++ [r] <+: requests →
      st.reply (done.foldl st.after s) r = st'.reply (done.foldl st'.after t) r) :
    st.repliesFrom s requests = st'.repliesFrom t requests := by
  induction requests generalizing s t with
  | nil => rfl
  | cons r rest ih =>
    have hfirst : st.reply s r = st'.reply t r := h [] r (by simp)
    have hrest : st.repliesFrom (st.after s r) rest = st'.repliesFrom (st'.after t r) rest := by
      apply ih
      intro done q hq
      exact h (r :: done) q (by simpa using hq)
    rw [Store.repliesFrom, Store.repliesFrom, hfirst, hrest]

end Replies

/-- Both stores reply from lists that hold the same runs, in an order that starts settle. -/
theorem reply_eq (hstorable : ∀ s ∈ saves, Storable s) (hname : OneName saves) (hapart : Apart saves)
    (r : Request) :
    Memory.store.reply (memoryAfter saves) r = Table.store.reply (tableAfter saves) r := by
  have hmemory := memory_filed_last (firstName_eq_lastName hname)
  have htable := readBack_filed hstorable (table_selects hstorable)
  cases r with
  | save s => rfl
  | load id =>
    have hload : (memoryAfter saves).load? id = (tableAfter saves).load? id :=
      ((memoryAfter_kept saves).load? id).trans (table_load? hstorable id).symm
    exact congrArg Reply.loaded hload
  | list p => exact congrArg Reply.listed (filed_lists_eq hapart hmemory htable p)
  | pipelines => exact congrArg Reply.named (hmemory.names_eq htable)

/-- Requests under which the stores are used alike. -/
structure Regular (requests : List Request) : Prop where
  storable : ∀ s ∈ savesOf requests, Storable s
  named : OneName (savesOf requests)
  apart : ∀ done, done <+: requests → Apart (savesOf done)

instance (requests : List Request) : Decidable (Regular requests) :=
  decidable_of_iff ((∀ s ∈ savesOf requests, Storable s) ∧ OneName (savesOf requests) ∧
      ∀ done ∈ requests.inits, Apart (savesOf done))
    ⟨fun ⟨hstorable, hname, hapart⟩ =>
        ⟨hstorable, hname, fun done hdone => hapart done ((List.mem_inits done requests).mpr hdone)⟩,
      fun h => ⟨h.storable, h.named, fun done hdone =>
        h.apart done ((List.mem_inits done requests).mp hdone)⟩⟩

/-- Started empty, the store in memory and the table give the same replies. -/
theorem stores_reply_alike {requests : List Request} (h : Regular requests) :
    Memory.store.replies requests = Table.store.replies requests := by
  apply repliesFrom_eq
  intro done r hprefix
  have hdone : done <+: requests := (List.prefix_append done [r]).trans hprefix
  have hsaves : ∀ s ∈ savesOf done, s ∈ savesOf requests :=
    fun s hs => (hdone.filterMap saved?).subset hs
  rw [foldl_after, foldl_after]
  refine reply_eq (fun s hs => h.storable s (hsaves s hs)) ?_ (h.apart done hdone) r
  exact fun a ha b hb => h.named a (hsaves a ha) b (hsaves b hb)

/-- Two runs change places: the first is saved again with a later start, and the second with the
start that the first had. -/
def changingPlaces : List Request :=
  let first := releaseRun ⟨1, by decide⟩
  let second := releaseRun ⟨2, by decide⟩
  [.save (first .running 1700000000 0), .save (second .failed 1700000000 250000000),
    .list "Release", .save (first .completed 1700000600 0), .save (second .failed 1700000000 0),
    .list "Release", .load (first .completed 0 0).id, .pipelines]

/-- Starts may meet on the way, as long as the runs that have them are not stored at one time. -/
theorem changingPlaces_reply_alike :
    Regular changingPlaces ∧
    Memory.store.replies changingPlaces = Table.store.replies changingPlaces := by
  have hregular : Regular changingPlaces := by decide +kernel
  exact ⟨hregular, stores_reply_alike hregular⟩

end ReleaseJob.Proofs
