import Mathlib.Algebra.BigOperators.Group.List.Basic
import Mathlib.Algebra.Order.Ring.Nat

/-! A network that loses nothing and may deliver a message any number of times. -/

namespace Lib

structure Flight (M : Type) where
  message : M
  deliveries : Nat
  deriving DecidableEq, Repr

abbrev Network (M : Type) := List (Flight M)

namespace Network

variable {M : Type}

def post (net : Network M) (messages : List M) : Network M := net ++ messages.map (⟨·, 0⟩)

def deliver (net : Network M) (index : Nat) : Network M :=
  List.modify net index fun flight => { flight with deliveries := flight.deliveries + 1 }

/-- A delivery, and the messages that are sent on it. -/
def exchange (net : Network M) (index : Nat) (replies : List M) : Network M :=
  (net.deliver index).post replies

/-- How many messages of a kind were sent. -/
def sent (kind : M → Bool) (net : Network M) : Nat := net.countP fun flight => kind flight.message

/-- How often messages of a kind have arrived. -/
def arrived (kind : M → Bool) (net : Network M) : Nat :=
  (net.map fun flight => if kind flight.message then flight.deliveries else 0).sum

def Quiet (net : Network M) : Prop := ∀ flight ∈ net, 0 < flight.deliveries

variable {net : Network M} {kind : M → Bool}

theorem deliver_eq {index : Nat} {flight : Flight M} (found : net[index]? = some flight) :
    ∃ before after, net = before ++ flight :: after ∧
      net.deliver index =
        before ++ { flight with deliveries := flight.deliveries + 1 } :: after := by
  rcases List.getElem?_eq_some_iff.mp found with ⟨inside, flight_eq⟩
  refine ⟨net.take index, net.drop (index + 1), ?_, ?_⟩
  · rw [← flight_eq, List.getElem_cons_drop, List.take_append_drop]
  · rw [deliver, List.modify_eq_take_cons_drop inside, flight_eq]

@[simp] theorem sent_post (net : Network M) (messages : List M) :
    sent kind (net.post messages) = sent kind net + messages.countP kind := by
  rw [sent, post, List.countP_append, List.countP_map]
  rfl

@[simp] theorem arrived_post (net : Network M) (messages : List M) :
    arrived kind (net.post messages) = arrived kind net := by
  have nothing : arrived kind (messages.map (⟨·, 0⟩)) = 0 := by
    apply List.sum_eq_zero
    intro count member
    rcases List.mem_map.mp member with ⟨flight, listed, rfl⟩
    rcases List.mem_map.mp listed with ⟨message, _, rfl⟩
    exact ite_self 0
  calc arrived kind (net.post messages)
      = arrived kind net + arrived kind (messages.map (⟨·, 0⟩)) := by
        rw [arrived, post, List.map_append, List.sum_append]
        rfl
    _ = arrived kind net := by rw [nothing, Nat.add_zero]

theorem sent_deliver {index : Nat} {flight : Flight M} (found : net[index]? = some flight) :
    sent kind (net.deliver index) = sent kind net := by
  rcases deliver_eq found with ⟨before, after, whole, delivered⟩
  rw [delivered, sent, List.countP_append, List.countP_cons, sent, whole, List.countP_append,
    List.countP_cons]

theorem arrived_deliver {index : Nat} {flight : Flight M} (found : net[index]? = some flight) :
    arrived kind (net.deliver index) =
      arrived kind net + if kind flight.message then 1 else 0 := by
  rcases deliver_eq found with ⟨before, after, whole, delivered⟩
  rw [delivered, arrived, whole, arrived]
  simp only [List.map_append, List.map_cons, List.sum_append, List.sum_cons]
  split <;> omega

theorem mem_post {messages : List M} {flight : Flight M} :
    flight ∈ net.post messages ↔ flight ∈ net ∨ ∃ message ∈ messages, flight = ⟨message, 0⟩ := by
  rw [post, List.mem_append, List.mem_map]
  constructor
  · rintro (old | ⟨message, listed, rfl⟩)
    · exact Or.inl old
    · exact Or.inr ⟨message, listed, rfl⟩
  · rintro (old | ⟨message, listed, rfl⟩)
    · exact Or.inl old
    · exact Or.inr ⟨message, listed, rfl⟩

theorem mem_deliver {index : Nat} {flight other : Flight M} (found : net[index]? = some flight)
    (member : other ∈ net.deliver index) : ∃ old ∈ net, old.message = other.message := by
  rcases deliver_eq found with ⟨before, after, whole, delivered⟩
  rw [delivered, List.mem_append, List.mem_cons] at member
  rw [whole]
  rcases member with first | rfl | last
  · exact ⟨other, by simp [first], rfl⟩
  · exact ⟨flight, by simp, rfl⟩
  · exact ⟨other, by simp [last], rfl⟩

theorem deliver_keeps {index : Nat} {flight old : Flight M} (found : net[index]? = some flight)
    (member : old ∈ net) : ∃ new ∈ net.deliver index, old.deliveries ≤ new.deliveries := by
  rcases deliver_eq found with ⟨before, after, whole, delivered⟩
  rw [whole, List.mem_append, List.mem_cons] at member
  rw [delivered]
  rcases member with first | rfl | last
  · exact ⟨old, by simp [first], Nat.le_refl _⟩
  · exact ⟨{ old with deliveries := old.deliveries + 1 }, by simp, Nat.le_succ _⟩
  · exact ⟨old, by simp [last], Nat.le_refl _⟩

theorem sent_exchange {index : Nat} {flight : Flight M} (found : net[index]? = some flight)
    (replies : List M) :
    sent kind (net.exchange index replies) = sent kind net + replies.countP kind := by
  rw [exchange, sent_post, sent_deliver found]

theorem arrived_exchange {index : Nat} {flight : Flight M} (found : net[index]? = some flight)
    (replies : List M) :
    arrived kind (net.exchange index replies) =
      arrived kind net + if kind flight.message then 1 else 0 := by
  rw [exchange, arrived_post, arrived_deliver found]

theorem mem_exchange {index : Nat} {flight other : Flight M} {replies : List M}
    (found : net[index]? = some flight) (member : other ∈ net.exchange index replies) :
    (∃ old ∈ net, old.message = other.message) ∨ other.message ∈ replies := by
  rcases mem_post.mp member with old | ⟨message, listed, rfl⟩
  · rcases mem_deliver found old with ⟨before, listed, same⟩
    exact Or.inl ⟨before, listed, same⟩
  · exact Or.inr listed

theorem repeated_exchange {index : Nat} {flight : Flight M} (found : net[index]? = some flight)
    (replies : List M) (twice : ∃ old ∈ net, 2 ≤ old.deliveries) :
    ∃ new ∈ net.exchange index replies, 2 ≤ new.deliveries := by
  rcases twice with ⟨old, listed, enough⟩
  rcases deliver_keeps found listed with ⟨new, member, more⟩
  exact ⟨new, mem_post.mpr (Or.inl member), Nat.le_trans enough more⟩

theorem deliveries_le_arrived {flight : Flight M} (member : flight ∈ net)
    (isKind : kind flight.message = true) : flight.deliveries ≤ arrived kind net := by
  rcases List.append_of_mem member with ⟨before, after, whole⟩
  rw [whole, arrived]
  simp only [List.map_append, List.map_cons, List.sum_append, List.sum_cons, isKind, if_true]
  omega

theorem sent_pos {flight : Flight M} (member : flight ∈ net) (isKind : kind flight.message = true) :
    0 < sent kind net :=
  List.countP_pos_iff.mpr ⟨flight, member, isKind⟩

theorem arrived_eq_zero (unsent : sent kind net = 0) : arrived kind net = 0 := by
  apply List.sum_eq_zero
  intro count member
  rcases List.mem_map.mp member with ⟨flight, listed, rfl⟩
  exact if_neg (List.countP_eq_zero.mp unsent flight listed)

theorem sent_le_arrived (quiet : net.Quiet) : sent kind net ≤ arrived kind net := by
  induction net with
  | nil => exact Nat.le_refl 0
  | cons flight rest ih =>
      have first := quiet flight List.mem_cons_self
      have others := ih (fun other member => quiet other (List.mem_cons_of_mem flight member))
      rw [sent, List.countP_cons, arrived, List.map_cons, List.sum_cons]
      change _ ≤ _ + arrived kind rest
      change sent kind rest + _ ≤ _
      split
      · omega
      · omega

theorem repeated_of_arrived (more : sent kind net < arrived kind net) :
    ∃ flight ∈ net, 2 ≤ flight.deliveries := by
  induction net with
  | nil => cases more
  | cons flight rest ih =>
      rw [sent, List.countP_cons, arrived, List.map_cons, List.sum_cons] at more
      change sent kind rest + _ < _ + arrived kind rest at more
      by_cases twice : 2 ≤ flight.deliveries
      · exact ⟨flight, List.mem_cons_self, twice⟩
      · have fewer : sent kind rest < arrived kind rest := by
          split at more <;> omega
        rcases ih fewer with ⟨other, member, twice⟩
        exact ⟨other, List.mem_cons_of_mem flight member, twice⟩

end Network

end Lib
