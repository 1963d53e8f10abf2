import Mathlib.Logic.Relation

/-! Members of a group that ask everyone they meet whom else they know, and try to reach whomever they
are told of. -/

namespace Lib

structure Gossip (A : Type) where
  knows : A → A → Prop
  /-- a request of the first to the second is under way -/
  asking : A → A → Prop
  /-- the first has yet to take up an answer that names the second -/
  told : A → A → Prop
  /-- the first is trying to reach the second -/
  trying : A → A → Prop

namespace Gossip

variable {A : Type} {s t : Gossip A} {a b c : A}

/-- What a step from `s` to `t` may do: nobody is forgotten, whoever is new is asked, a request comes to
an end only with the answer of somebody who knows the sender, and an answer or an attempt only once it
has led to something. -/
structure Advances (s t : Gossip A) : Prop where
  remembers : ∀ a b, s.knows a b → t.knows a b
  asks : ∀ a b, t.knows a b → s.knows a b ∨ t.asking a b
  answers : ∀ a b, s.asking a b →
    t.asking a b ∨ (s.knows b a ∧ ∀ c, t.knows b c → t.told a c)
  follows : ∀ a c, s.told a c → t.told a c ∨ a = c ∨ t.knows a c ∨ t.trying a c
  reaches : ∀ a c, s.trying a c → t.trying a c ∨ t.knows a c

theorem Advances.refl (s : Gossip A) : Advances s s where
  remembers _ _ := id
  asks _ _ := Or.inl
  answers _ _ := Or.inl
  follows _ _ := Or.inl
  reaches _ _ := Or.inl

def Nearing (s : Gossip A) (a c : A) : Prop := s.knows a c ∨ s.trying a c ∨ s.told a c

/-- What is missing in the group is under way. -/
structure Closing (s : Gossip A) : Prop where
  returned : ∀ a b, s.knows a b → s.asking a b ∨ s.knows b a
  triangle : ∀ a b c, a ≠ c → s.knows a b → s.knows c b → s.knows b a → s.knows b c →
    s.asking a b ∨ s.asking c b ∨ s.Nearing a c ∨ s.Nearing c a

theorem Advances.nearing (moved : Advances s t) (apart : a ≠ c) (near : s.Nearing a c) :
    t.Nearing a c := by
  rcases near with known | trying | told
  · exact Or.inl (moved.remembers a c known)
  · rcases moved.reaches a c trying with still | known
    · exact Or.inr (Or.inl still)
    · exact Or.inl known
  · rcases moved.follows a c told with still | same | known | trying
    · exact Or.inr (Or.inr still)
    · exact absurd same apart
    · exact Or.inl known
    · exact Or.inr (Or.inl trying)

theorem Advances.returned (moved : Advances s t) (closing : Closing s) (known : t.knows a b) :
    t.asking a b ∨ t.knows b a := by
  rcases moved.asks a b known with before | asking
  · rcases closing.returned a b before with asking | back
    · rcases moved.answers a b asking with still | ⟨back, _⟩
      · exact Or.inl still
      · exact Or.inr (moved.remembers b a back)
    · exact Or.inr (moved.remembers b a back)
  · exact Or.inl asking

theorem Advances.settled_before (moved : Advances s t) (closing : Closing s) (known : t.knows a b)
    (answered : ¬t.asking a b) : s.knows a b ∧ s.knows b a := by
  have before := (moved.asks a b known).resolve_right answered
  refine ⟨before, ?_⟩
  rcases closing.returned a b before with asking | back
  · exact ((moved.answers a b asking).resolve_left answered).1
  · exact back

theorem Advances.closing (moved : Advances s t) (closing : Closing s) : Closing t where
  returned _ _ := moved.returned closing
  triangle := by
    intro a b c apart knowsA knowsC backA backC
    by_cases askingA : t.asking a b
    · exact Or.inl askingA
    by_cases askingC : t.asking c b
    · exact Or.inr (Or.inl askingC)
    have pairA := moved.settled_before closing knowsA askingA
    have pairC := moved.settled_before closing knowsC askingC
    refine Or.inr (Or.inr ?_)
    rcases closing.triangle a b c apart pairA.1 pairC.1 pairA.2 pairC.2 with
      asked | asked | near | near
    · have answer := ((moved.answers a b asked).resolve_left askingA).2
      exact Or.inl (Or.inr (Or.inr (answer c backC)))
    · have answer := ((moved.answers c b asked).resolve_left askingC).2
      exact Or.inr (Or.inr (Or.inr (answer a backA)))
    · exact Or.inl (moved.nearing apart near)
    · exact Or.inr (moved.nearing apart.symm near)

structure Quiet (s : Gossip A) : Prop where
  asking : ∀ a b, ¬s.asking a b
  told : ∀ a c, ¬s.told a c
  trying : ∀ a c, ¬s.trying a c

theorem Closing.symm (closing : Closing s) (quiet : Quiet s) (known : s.knows a b) : s.knows b a :=
  (closing.returned a b known).resolve_left (quiet.asking a b)

theorem Closing.trans (closing : Closing s) (quiet : Quiet s) (first : s.knows a b)
    (second : s.knows b c) (apart : a ≠ c) : s.knows a c := by
  have known {a c : A} (near : s.Nearing a c) : s.knows a c :=
    near.resolve_right fun rest => rest.elim (quiet.trying a c) (quiet.told a c)
  rcases closing.triangle a b c apart first (closing.symm quiet second) (closing.symm quiet first)
    second with asking | asking | near | near
  · exact absurd asking (quiet.asking a b)
  · exact absurd asking (quiet.asking c b)
  · exact known near
  · exact closing.symm quiet (known near)

/-- Once all is quiet, whoever is linked by a chain of acquaintances is acquainted. -/
theorem Closing.complete (closing : Closing s) (quiet : Quiet s)
    (linked : Relation.ReflTransGen s.knows a c) : a = c ∨ s.knows a c := by
  induction linked with
  | refl => exact Or.inl rfl
  | @tail b c _ last ih =>
      by_cases same : a = c
      · exact Or.inl same
      · rcases ih with rfl | first
        · exact Or.inr last
        · exact Or.inr (closing.trans quiet first last same)

end Gossip

end Lib
