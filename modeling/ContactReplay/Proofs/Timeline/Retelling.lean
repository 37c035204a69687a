import ContactReplay.Proofs.Timeline.Coalescing
import Mathlib.Data.List.Forall2

/-!
# Contacts told in another way

What contacts are merged to depends neither on the order in which they are listed nor on which node
of a contact observed the other one:

* `Contact.settled` writes the two nodes of a contact in their own order, and a merger takes a
  settled contact in like the contact itself (`Merger.feed_settled`);
* the order in which a merger takes contacts settles all ties but those between contacts that are
  the same once they are settled (`Contact.settled_eq_of_order`), so lists with the same settled
  contacts become the same list (`Contact.map_settled_inOrder`).
-/

namespace ContactReplay

namespace Contact

/-- The contact as the other node tells it. -/
def mirrored (contact : Contact) : Contact :=
  { contact with observer := contact.observed, observed := contact.observer }

/-- The same contacts in any order, each told by either of its nodes. -/
def Retold (contacts others : List Contact) : Prop :=
  ∃ shuffled : List Contact, shuffled.Perm contacts ∧
    List.Forall₂ (fun contact other => other = contact ∨ other = contact.mirrored) shuffled others

/-! ## Settled contacts -/

/-- The contact with its nodes in their own order. -/
def settled (contact : Contact) : Contact :=
  ⟨contact.pair.low, contact.pair.high, contact.start, contact.stop⟩

@[simp]
theorem pair_settled (contact : Contact) : contact.settled.pair = contact.pair :=
  Pair.of_low_high contact.pair

@[simp]
theorem settled_settled (contact : Contact) : contact.settled.settled = contact.settled := by
  rw [settled, pair_settled]
  rfl

theorem settled_mirrored (contact : Contact) : contact.mirrored.settled = contact.settled := by
  have same : contact.mirrored.pair = contact.pair := Pair.of_comm _ _
  rw [settled, same]
  rfl

theorem order_settled (first second : Contact) :
    first.settled.order second.settled = first.order second := by
  simp only [order, pair_settled]
  rfl

/-- Contacts of which neither comes after the other are the same once they are settled. -/
theorem settled_eq_of_order {first second : Contact} (before : (first.order second).isLE = true)
    (after : (second.order first).isLE = true) : first.settled = second.settled := by
  have tied : first.order second = .eq := Std.OrientedCmp.isLE_antisymm before after
  rw [order, Ordering.then_eq_eq, Ordering.then_eq_eq] at tied
  obtain ⟨starts, stops, pairs⟩ := tied
  rw [settled, settled, Std.LawfulEqOrd.eq_of_compare starts, Std.LawfulEqOrd.eq_of_compare stops,
    Std.LawfulEqOrd.eq_of_compare pairs]

/-- Lists with the same settled contacts are taken in the same order. -/
theorem map_settled_inOrder {contacts others : List Contact}
    (same : (others.map settled).Perm (contacts.map settled)) :
    (inOrder others).map settled = (inOrder contacts).map settled := by
  have sorted : ∀ listed : List Contact, ((inOrder listed).map settled).Pairwise fun first second =>
      (first.order second).isLE = true := by
    intro listed
    rw [List.pairwise_map]
    exact (inOrder_sorted listed).imp fun {first second} before => by rwa [order_settled]
  have shuffled : ((inOrder others).map settled).Perm ((inOrder contacts).map settled) :=
    ((inOrder_perm others).map settled).trans
      (same.trans ((inOrder_perm contacts).map settled).symm)
  refine shuffled.eq_of_pairwise (fun first second firstMember secondMember before after => ?_)
    (sorted others) (sorted contacts)
  obtain ⟨firstContact, -, rfl⟩ := List.mem_map.mp firstMember
  obtain ⟨secondContact, -, rfl⟩ := List.mem_map.mp secondMember
  simpa using settled_eq_of_order before after

theorem Retold.map_settled_perm {contacts others : List Contact} (retold : Retold contacts others) :
    (others.map settled).Perm (contacts.map settled) := by
  obtain ⟨shuffled, permuted, told⟩ := retold
  have same : others.map settled = shuffled.map settled := by
    clear permuted
    induction told with
    | nil => rfl
    | cons either _ inductionHypothesis =>
        rw [List.map_cons, List.map_cons, inductionHypothesis]
        rcases either with rfl | rfl
        · rfl
        · rw [settled_mirrored]
  rw [same]
  exact permuted.map settled

end Contact

/-! ## Taking settled contacts in -/

namespace Merger

theorem enroll_settled (merger : Merger) (contact : Contact) :
    merger.enroll contact.settled = merger.enroll contact := by
  have nodes : (merger.nodes.insert contact.pair.low ()).insert contact.pair.high () =
      (merger.nodes.insert contact.observer ()).insert contact.observed () := by
    rcases Pair.of_eq_or contact.observer contact.observed with ⟨low, high⟩ | ⟨low, high⟩
    · rw [Contact.pair, low, high]
    · rw [Contact.pair, low, high, Table.insert_comm]
  rw [enroll, enroll]
  exact congrArg (fun nodes => { merger with nodes, lastStart := some contact.start }) nodes

/-- A merger takes a contact in without regard to who observed whom. -/
theorem feed_settled (merger : Merger) (contact : Contact) :
    merger.feed contact.settled = merger.feed contact := by
  have refusals : merger.refusal? contact.settled = merger.refusal? contact := by
    rw [refusal?, refusal?, Contact.pair_settled]
    rfl
  have stops : merger.paddedStop contact.settled = merger.paddedStop contact := rfl
  have starts : contact.settled.start = contact.start := rfl
  simp only [feed, refusals, stops, starts, Contact.pair_settled, enroll_settled]

theorem feedAll_map_settled (merger : Merger) (contacts : List Contact) :
    merger.feedAll (contacts.map Contact.settled) = merger.feedAll contacts := by
  simp only [feedAll, List.foldlM_map, feed_settled]

end Merger

/-- The timeline of contacts, or the error that there is none, does not depend on the order of the
contacts nor on who observed whom. -/
theorem ofContacts_eq_of_retold {contacts others : List Contact}
    (retold : Contact.Retold contacts others) (pad : UInt64) :
    Timeline.ofContacts others pad = Timeline.ofContacts contacts pad := by
  have fed : ∀ merger : Merger, merger.feedAll (Contact.inOrder others) =
      merger.feedAll (Contact.inOrder contacts) := by
    intro merger
    rw [← merger.feedAll_map_settled, Contact.map_settled_inOrder retold.map_settled_perm,
      merger.feedAll_map_settled]
  have begun : ∀ listed, Timeline.ofContacts listed pad = Merger.start pad >>= fun merger =>
      merger.feedAll (Contact.inOrder listed) >>= fun full => pure full.timeline := fun _ => rfl
  simp only [begun, fed]

/-- Contacts that tie, one of them without duration, and one that ends before it begins. -/
theorem ofContacts_eq_of_retold_tied :
    let contacts : List Contact := [⟨.number 1, .number 2, 5, 5⟩, ⟨.text "a", .number 2, 5, 9⟩,
      ⟨.number 2, .number 1, 5, 5⟩, ⟨.number 3, .text "a", 9, 4⟩]
    let others : List Contact := [⟨.text "a", .number 3, 9, 4⟩, ⟨.number 2, .number 1, 5, 5⟩,
      ⟨.number 2, .number 1, 5, 5⟩, ⟨.text "a", .number 2, 5, 9⟩]
    Contact.Retold contacts others ∧
      Timeline.ofContacts others 10 = Timeline.ofContacts contacts 10 := by
  intro contacts others
  have retold : Contact.Retold contacts others := by
    refine ⟨[⟨.number 3, .text "a", 9, 4⟩, ⟨.number 1, .number 2, 5, 5⟩,
      ⟨.number 2, .number 1, 5, 5⟩, ⟨.text "a", .number 2, 5, 9⟩], by decide, ?_⟩
    exact .cons (Or.inr rfl) (.cons (Or.inr rfl) (.cons (Or.inl rfl) (.cons (Or.inl rfl) .nil)))
  exact ⟨retold, ofContacts_eq_of_retold retold 10⟩

end ContactReplay
