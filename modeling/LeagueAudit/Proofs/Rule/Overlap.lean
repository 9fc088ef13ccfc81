import LeagueAudit.Proofs.Schedule.Overlap
import Mathlib.Data.List.Pairwise

/-!
What the rule about overlapping games of a team promises: when it finds nothing in an index that was
not scoped, assignments with a common participant share no instant.
-/
namespace LeagueAudit

/-- An instant belongs to the slot of an assignment; its end does not. -/
def Assignment.covers (a : Assignment) (t : Int) : Prop :=
  ∃ start finish, a.span? = some (start, finish) ∧ start ≤ t ∧ t < finish

/-- The fixtures of two assignments have a participant in common. -/
def Index.sharesParticipant (index : Index) (a b : Assignment) : Prop :=
  ∃ team as bs, index.participants a.fixture = .ok as ∧ index.participants b.fixture = .ok bs ∧
    team ∈ as ∧ team ∈ bs

/-- If the fixtures of two assignments have a participant in common, their slots have no instant in
common. -/
def Index.apart (index : Index) (a b : Assignment) : Prop :=
  index.sharesParticipant a b → ¬∃ t, a.covers t ∧ b.covers t

instance (index : Index) : Std.Symm index.apart where
  symm := by
    rintro a b hab ⟨team, as, bs, has, hbs, hma, hmb⟩ ⟨t, hta, htb⟩
    exact hab ⟨team, bs, as, hbs, has, hmb, hma⟩ ⟨t, htb, hta⟩

namespace Rule

variable {index : Index}

end Rule
end LeagueAudit
