import ReleaseJob.Bindings
import ReleaseJob.Json

namespace ReleaseJob.Json

def text? : Json → Option String
  | str s => some s
  | _ => none

def flag? : Json → Option Bool
  | bool b => some b
  | _ => none

/-- Counts fit 64 bits. -/
def count? : Json → Option Nat
  | num (.ofNat n) 0 => if n < Nat.pow 2 64 then some n else none
  | _ => none

def elems? : Json → Option (List Json)
  | arr l => some l
  | _ => none

def fields? : Json → Option (List (String × Json))
  | obj fs => some fs
  | _ => none

def texts? (j : Json) : Option (List String) :=
  j.elems?.bind (·.mapM text?)

def option? (read : Json → Option α) : Json → Option (Option α)
  | null => some none
  | j => (read j).map some

def field? (j : Json) (name : String) : Option Json :=
  match j with
  | obj fs => (fs.reverse.find? (·.1 = name)).map Prod.snd
  | _ => none

def pairs? (j : Json) : Option (List (String × String)) :=
  j.elems?.bind (·.mapM fun
    | arr [str name, str value] => some (name, value)
    | _ => none)

def bindings? (j : Json) : Option (Bindings String) :=
  j.fields?.bind fun fs =>
    (fs.mapM fun ((name, value) : String × Json) => value.text?.map (name, ·)).map .ofList

inductive Record
  | named (fields : Json)
  | positional (elems : List Json)

/-- The fields of an object are found by name, and unknown names are passed over. Those of an array
are found by position, and it may not be longer than the record. -/
def record? (width : Nat) : Json → Option Record
  | obj fs => some (.named (obj fs))
  | arr l => if l.length ≤ width then some (.positional l) else none
  | _ => none

namespace Record

def find? (r : Record) (position : Nat) (name : String) : Option Json :=
  match r with
  | named fields => fields.field? name
  | positional elems => elems[position]?

def required (r : Record) (position : Nat) (name : String) (read : Json → Option α) : Option α :=
  (r.find? position name).bind read

def withDefault (r : Record) (position : Nat) (name : String) (read : Json → Option α)
    (default : α) : Option α :=
  match r.find? position name with
  | none => some default
  | some j => read j

/-- A field that may be null, and be left out of an object but not of an array. -/
def nullable (r : Record) (position : Nat) (name : String) (read : Json → Option α) :
    Option (Option α) :=
  match r, r.find? position name with
  | _, some j => option? read j
  | named _, none => some none
  | positional _, none => none

end Record

end ReleaseJob.Json
