import ReleaseJob.History.Memory
import ReleaseJob.History.Table

namespace ReleaseJob.History

inductive Request
  | save (s : Summary)
  | load (id : RunId)
  | list (pipeline : String)
  | pipelines

inductive Reply
  | saved
  | loaded (s : Option Summary)
  | listed (l : List Summary)
  | named (names : List String)
  deriving DecidableEq

structure Store (σ : Type) where
  empty : σ
  save : σ → Summary → σ
  load? : σ → RunId → Option Summary
  list : σ → String → List Summary
  pipelines : σ → List String

namespace Store

variable {σ : Type} (st : Store σ)

def reply (s : σ) : Request → Reply
  | .save _ => .saved
  | .load id => .loaded (st.load? s id)
  | .list p => .listed (st.list s p)
  | .pipelines => .named (st.pipelines s)

/-- Only a save changes what is stored. -/
def after (s : σ) : Request → σ
  | .save r => st.save s r
  | _ => s

def repliesFrom (s : σ) : List Request → List Reply
  | [] => []
  | r :: rest => st.reply s r :: repliesFrom (st.after s r) rest

def replies (requests : List Request) : List Reply := st.repliesFrom st.empty requests

end Store

def Memory.store : Store Memory where
  empty := .empty
  save := Memory.save
  load? := Memory.load?
  list := Memory.list
  pipelines := Memory.pipelines

def Table.store : Store Table where
  empty := .empty
  save := Table.save
  load? := Table.load?
  list := Table.list
  pipelines := Table.pipelines

end ReleaseJob.History
