namespace LadderMonitor

/-- An answer of a predicate; it may also fail. -/
inductive Reply where
  | yes
  | no
  | failing
deriving DecidableEq, Repr

/-- A predicate: the answers to the next questions, and the answer to all later ones. -/
structure Predicate where
  queued : List Reply := []
  lasting : Reply := .yes
deriving DecidableEq, Repr

namespace Predicate

def reply (p : Predicate) : Reply := p.queued.headD p.lasting

def asked (p : Predicate) : Predicate := { p with queued := p.queued.tail }

end Predicate

end LadderMonitor
