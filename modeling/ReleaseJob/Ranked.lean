namespace ReleaseJob.Ranked

/-- Behind all that has to stand `ahead` of it, and before what may stand in either order with it. -/
def insert (ahead : α → α → Bool) (x : α) : List α → List α
  | [] => [x]
  | y :: rest => if ahead y x then y :: insert ahead x rest else x :: y :: rest

/-- Of two elements that may stand in either order, the earlier stays in front. -/
def ofList (ahead : α → α → Bool) (l : List α) : List α := l.foldr (insert ahead) []

end ReleaseJob.Ranked
