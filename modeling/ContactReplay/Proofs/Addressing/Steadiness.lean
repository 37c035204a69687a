import ContactReplay.Proofs.Addressing.Distinctness
import Mathlib.Data.Finset.Card

/-!
# Address books keep their word

A book may be asked for allotments and for what pairs have, in any order, again and on when it is
full.  After any such inquiries it is `Steady` in the pairs that have got an allotment by then, its
holders:

* a pair is served exactly if it is a holder or a subnet is left, and a new one gets the number of
  holders as its subnet;
* what a pair has got stays, and asking again or asking in vain changes nothing.

Each of the three ways in which a request can end adds to the served pairs what it adds to the
holders (`Allots.exists_after`).
-/

namespace ContactReplay

/-- What a book can be asked: to allot addresses to a pair, or what a pair has got. -/
inductive Inquiry where
  | allot (pair : Pair NodeId)
  | get (pair : Pair NodeId)
  deriving DecidableEq, Repr

namespace AddressBook

/-- A book after some inquiries; to be asked what a pair has got does not change it. -/
def after (book : AddressBook) : List Inquiry → AddressBook
  | [] => book
  | .allot pair :: rest => (book.allot pair).2.after rest
  | .get _ :: rest => book.after rest

/-- The pairs that get an allotment by some inquiries. -/
def holders (book : AddressBook) : List Inquiry → Finset (Pair NodeId)
  | [] => ∅
  | .allot pair :: rest =>
      let (outcome, next) := book.allot pair
      if outcome.isOk then insert pair (next.holders rest) else next.holders rest
  | .get _ :: rest => book.holders rest

/-- A book in which some pairs hold an allotment, answered for by what it does next. -/
structure Steady (book : AddressBook) (capacity : Nat) (holders : Finset (Pair NodeId)) :
    Prop where
  /-- A pair is served exactly if it has been served before or a subnet is left. -/
  served_iff : ∀ pair, (∃ allotment, (book.allot pair).1 = .ok allotment) ↔
    pair ∈ holders ∨ holders.card < capacity
  /-- The subnet of a new pair is the number of pairs before it. -/
  numbered : ∀ pair allotment, pair ∉ holders → (book.allot pair).1 = .ok allotment →
    allotment.subnet.toNat = holders.card
  /-- What a pair has got stays, whatever is asked later. -/
  lasting : ∀ pair allotment, (book.allot pair).1 = .ok allotment → ∀ later,
    (((book.allot pair).2.after later).allot pair).1 = .ok allotment ∧
      ((book.allot pair).2.after later).get? pair = some allotment
  /-- Asking again for a pair changes nothing. -/
  repeated : ∀ pair ∈ holders, (book.allot pair).2 = book
  /-- Asking in vain changes nothing. -/
  refused : ∀ pair error, (book.allot pair).1 = .error error → (book.allot pair).2 = book
  found_iff : ∀ pair, (∃ allotment, book.get? pair = some allotment) ↔ pair ∈ holders
  size : book.size = holders.card

namespace Allots

variable {book : AddressBook} {plan : AddressPlan} {pairs : List (Pair NodeId)}

/-- Whatever a book is asked, the pairs that get an allotment are served after those before. -/
theorem exists_after (allots : book.Allots plan pairs) (small : plan.subnetCapacity.toNat ≤ 256)
    (inquiries : List Inquiry) :
    ∃ later, (book.after inquiries).Allots plan (pairs ++ later) ∧
      (pairs ++ later).toFinset = pairs.toFinset ∪ book.holders inquiries := by
  induction inquiries generalizing book pairs with
  | nil =>
      refine ⟨[], ?_, ?_⟩
      · rwa [List.append_nil]
      · rw [List.append_nil, holders, Finset.union_empty]
  | cons inquiry rest inductionHypothesis =>
      cases inquiry with
      | get pair => exact inductionHypothesis allots
      | allot pair =>
          rcases allots.allot_cases small pair with
            ⟨member, known⟩ | ⟨-, -, next, served, nextAllots⟩ | ⟨-, -, refused⟩
          · obtain ⟨later, restAllots, same⟩ := inductionHypothesis allots
            refine ⟨later, ?_, ?_⟩
            · rwa [after, known]
            · rw [holders, known, same]
              simp [Except.isOk, Except.toBool, member]
          · obtain ⟨later, restAllots, same⟩ := inductionHypothesis nextAllots
            rw [List.append_assoc] at restAllots same
            refine ⟨[pair] ++ later, ?_, ?_⟩
            · rwa [after, served]
            · rw [holders, served, same]
              ext other
              simp [Except.isOk, Except.toBool]
          · obtain ⟨later, restAllots, same⟩ := inductionHypothesis allots
            refine ⟨later, ?_, ?_⟩
            · rwa [after, refused]
            · rw [holders, refused, same]
              rfl

/-- Whatever a book is asked, a pair that has been served keeps its allotment. -/
theorem allot_after (allots : book.Allots plan pairs) (small : plan.subnetCapacity.toNat ≤ 256)
    {pair : Pair NodeId} (member : pair ∈ pairs) (later : List Inquiry) :
    ((book.after later).allot pair).1 = .ok (plan.allotment pairs pair) ∧
      (book.after later).get? pair = some (plan.allotment pairs pair) := by
  obtain ⟨more, laterAllots, -⟩ := allots.exists_after small later
  have stays : pair ∈ pairs ++ more := List.mem_append_left more member
  rw [laterAllots.allot_of_mem stays, laterAllots.allotments, if_pos stays,
    AddressPlan.allotment_append member]
  exact ⟨rfl, rfl⟩

/-- A book that has served some pairs and no others is steady in them. -/
theorem steady (allots : book.Allots plan pairs) (small : plan.subnetCapacity.toNat ≤ 256) :
    book.Steady plan.subnetCapacity.toNat pairs.toFinset := by
  have count : pairs.toFinset.card = pairs.length := List.toFinset_card_of_nodup allots.distinct
  constructor
  case served_iff =>
    intro pair
    rw [count, List.mem_toFinset]
    rcases allots.allot_cases small pair with
      ⟨member, known⟩ | ⟨-, room, next, served, -⟩ | ⟨new, full, refused⟩
    · exact iff_of_true ⟨_, by rw [known]⟩ (Or.inl member)
    · exact iff_of_true ⟨_, by rw [served]⟩ (Or.inr room)
    · refine iff_of_false ?_ (not_or.mpr ⟨new, Nat.not_lt.mpr full⟩)
      rw [refused]
      nofun
  case numbered =>
    intro pair allotment new given
    rw [List.mem_toFinset] at new
    rw [count]
    rcases allots.allot_cases small pair with
      ⟨member, -⟩ | ⟨-, room, next, served, -⟩ | ⟨-, -, refused⟩
    · exact absurd member new
    · rw [served] at given
      obtain rfl := Except.ok.inj given
      exact UInt8.toNat_ofNat_of_lt' (Nat.lt_of_lt_of_le room small)
    · rw [refused] at given
      cases given
  case lasting =>
    intro pair allotment given later
    rcases allots.allot_cases small pair with
      ⟨member, known⟩ | ⟨new, -, next, served, nextAllots⟩ | ⟨-, -, refused⟩
    · rw [known] at given ⊢
      obtain rfl := Except.ok.inj given
      exact allots.allot_after small member later
    · rw [served] at given ⊢
      obtain rfl := Except.ok.inj given
      rw [← AddressPlan.allotment_append_self new]
      exact nextAllots.allot_after small (by simp) later
    · rw [refused] at given
      cases given
  case repeated =>
    intro pair member
    rw [allots.allot_of_mem (List.mem_toFinset.mp member)]
  case refused =>
    intro pair error failed
    rcases allots.allot_cases small pair with
      ⟨-, known⟩ | ⟨-, -, next, served, -⟩ | ⟨-, -, refused⟩
    · rw [known]
    · rw [served] at failed
      cases failed
    · rw [refused]
  case found_iff =>
    intro pair
    rw [allots.allotments, List.mem_toFinset]
    by_cases member : pair ∈ pairs <;> simp [member]
  case size => rw [allots.size_eq, count]

end Allots

/-- Whatever a book has been asked, it serves the pairs that hold an allotment and new ones as long
as there are subnets, numbers them through, and never takes anything back. -/
theorem after_steady {plan : AddressPlan} {book : AddressBook} (started : start plan = .ok book)
    (inquiries : List Inquiry) :
    (book.after inquiries).Steady plan.subnetCapacity.toNat (book.holders inquiries) := by
  obtain ⟨checked, rfl⟩ := start_eq_ok_iff.mp started
  have small : plan.subnetCapacity.toNat ≤ 256 :=
    UInt64.le_iff_toNat_le.mp (AddressPlan.check_eq_ok_iff.mp checked).2.1
  obtain ⟨served, allots, same⟩ := (allots_nil plan).exists_after small inquiries
  have holders : ([] ++ served).toFinset = AddressBook.holders { plan } inquiries := by
    rw [same, List.toFinset_nil, Finset.empty_union]
  exact holders ▸ allots.steady small

/-- A small book that is asked for a pair in both orders and for more than it has. -/
theorem after_steady_overfull :
    let plan : AddressPlan := { subnetCapacity := 2 }
    let inquiries : List Inquiry :=
      [.allot (.of 2 1), .get (.of 3 3), .allot (.of 1 2), .allot (.of 3 3), .allot (.of 4 5)]
    ∃ book, start plan = .ok book ∧
      (book.after inquiries).Steady plan.subnetCapacity.toNat (book.holders inquiries) := by
  intro plan inquiries
  have started : start plan = .ok { plan } := by decide
  exact ⟨_, started, after_steady started inquiries⟩

end AddressBook

end ContactReplay
