namespace DistinctCount

structure Queue (α : Type) where
  items : List α := []

namespace Queue

variable {α : Type}

def push (q : Queue α) (a : α) : Queue α :=
  { items := q.items ++ [a] }

/-- Takes up to `limit` items from the front. -/
def pop (q : Queue α) (limit : Nat) : List α × Queue α :=
  (q.items.take limit, { items := q.items.drop limit })

/-- Puts items back before all others, in the order they had. -/
def requeue (q : Queue α) (unsent : List α) : Queue α :=
  { items := unsent ++ q.items }

def size (q : Queue α) : Nat :=
  q.items.length

def isEmpty (q : Queue α) : Bool :=
  q.items.isEmpty

end Queue

end DistinctCount
