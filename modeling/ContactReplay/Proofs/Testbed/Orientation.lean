import ContactReplay.Proofs.Testbed.Integrity

/-!
# The ends of a link

A link is stored under an unordered pair of nodes, so a change of its loss may name either node
first.  Its interfaces, however, are compared in the order in which the link was added.

* `Testbed.EitherEnd` says of two nodes that a change of their link may be asked for from either
  end: it makes no difference which node is named first, as long as each comes with its own
  interface.
* `Testbed.adjusts_or_refuses` says which changes a testbed carries out, and
  `Testbed.eitherEnd_iff` that a link can be changed from either end exactly if both of its
  interfaces have the same number.
-/

namespace ContactReplay

namespace LinkAdjustment

/-- The same change, asked for from the other end. -/
def turned (adjustment : LinkAdjustment) : LinkAdjustment where
  first := adjustment.second
  second := adjustment.first
  firstInterface := adjustment.secondInterface
  secondInterface := adjustment.firstInterface
  loss := adjustment.loss

theorem pair_turned (adjustment : LinkAdjustment) : adjustment.turned.pair = adjustment.pair :=
  Pair.of_comm adjustment.second adjustment.first

/-- The interfaces are given in the order in which a link was added. -/
def Ordered (adjustment : LinkAdjustment) (link : LinkDescription) : Prop :=
  adjustment.firstInterface = link.firstInterface.id ∧
    adjustment.secondInterface = link.secondInterface.id

/-- Each node comes with its own interface on a link, whichever node is named first. -/
def Fits (adjustment : LinkAdjustment) (link : LinkDescription) : Prop :=
  (adjustment.first = link.first ∧ adjustment.firstInterface = link.firstInterface.id ∧
    adjustment.second = link.second ∧ adjustment.secondInterface = link.secondInterface.id) ∨
  (adjustment.first = link.second ∧ adjustment.firstInterface = link.secondInterface.id ∧
    adjustment.second = link.first ∧ adjustment.secondInterface = link.firstInterface.id)

end LinkAdjustment

namespace Testbed

variable {testbed : Testbed} {id : SessionId} {adjustment : LinkAdjustment}

/-- A link of a session that can still be used. -/
def UsableLink (testbed : Testbed) (id : SessionId) (pair : Pair NodeId) (link : SessionLink) :
    Prop :=
  ∃ session, testbed.usable id = .ok session ∧ session.links.get? pair = some link

/-- The loss that a link has now. -/
def loss? (testbed : Testbed) (id : SessionId) (pair : Pair NodeId) : Option Loss :=
  ((testbed.session? id).bind (·.links.get? pair)).map (·.loss)

/-- A change of the loss of a link is carried out, and the link has the loss asked for. -/
def Adjusts (testbed : Testbed) (id : SessionId) (adjustment : LinkAdjustment) : Prop :=
  (testbed.serve (.order id (.adjustLink adjustment))).1 = .ok () ∧
    (testbed.serve (.order id (.adjustLink adjustment))).2.loss? id adjustment.pair =
      some adjustment.loss

instance : Decidable (testbed.Adjusts id adjustment) :=
  inferInstanceAs (Decidable ((_ : Except Error Unit) = _ ∧ _))

/-- A change of the loss of a link is refused. -/
def RefusesAdjustment (testbed : Testbed) (id : SessionId) (adjustment : LinkAdjustment) : Prop :=
  ∃ error, (testbed.serve (.order id (.adjustLink adjustment))).1 = .error error

/-- The link of two nodes can be changed from either end. -/
structure EitherEnd (testbed : Testbed) (id : SessionId) (first second : NodeId) : Prop where
  /-- Which node is named first makes no difference. -/
  alike : ∀ firstInterface secondInterface loss,
    let adjustment := ⟨first, second, firstInterface, secondInterface, loss⟩
    (testbed.Adjusts id adjustment ∧ testbed.Adjusts id adjustment.turned) ∨
      (testbed.RefusesAdjustment id adjustment ∧ testbed.RefusesAdjustment id adjustment.turned)
  /-- A change is carried out only if each node comes with its own interface. -/
  own : ∀ firstInterface secondInterface loss,
    let adjustment := ⟨first, second, firstInterface, secondInterface, loss⟩
    (testbed.serve (.order id (.adjustLink adjustment))).1 = .ok () →
      ∃ link, testbed.UsableLink id adjustment.pair link ∧ adjustment.Fits link.description

theorem not_refusesAdjustment_of_adjusts (adjusts : testbed.Adjusts id adjustment) :
    ¬testbed.RefusesAdjustment id adjustment := by
  rintro ⟨error, refused⟩
  cases adjusts.1.symm.trans refused

theorem adjusts_of_usableLink {link : SessionLink}
    (usable : testbed.UsableLink id adjustment.pair link)
    (ordered : adjustment.Ordered link.description) : testbed.Adjusts id adjustment := by
  obtain ⟨session, live, linked⟩ := usable
  obtain ⟨first, second⟩ := ordered
  have carried : session.carryOut testbed.serviceFiles (.adjustLink adjustment) =
      .ok ((), { session with
        links := session.links.insert adjustment.pair { link with loss := adjustment.loss } }) := by
    rw [Session.carryOut, Session.adjustLink, linked]
    simp only [first, second, ne_eq, not_true_eq_false, or_self, if_false]
    rfl
  rw [Adjusts, serve_of_carried live carried]
  refine ⟨rfl, ?_⟩
  rw [loss?, session?, Table.get?_insert_self, Option.bind_some, Table.get?_insert_self,
    Option.map_some]

/-- A change that is carried out finds its link, with the interfaces in the order in which the link
was added. -/
theorem exists_usableLink_of_serve
    (served : (testbed.serve (.order id (.adjustLink adjustment))).1 = .ok ()) :
    ∃ link, testbed.UsableLink id adjustment.pair link ∧ adjustment.Ordered link.description := by
  rcases serve_order_cases testbed id (.adjustLink adjustment) with
    ⟨session, reply, next, held, up, carried, -⟩ | ⟨cause, refused⟩
  · cases Session.carries_of_carryOut carried with
    | adjustLink _ link linked first second =>
        exact ⟨link, ⟨session, usable_eq_ok_iff.mpr ⟨held, up⟩, linked⟩, first.symm, second.symm⟩
  · rw [refused] at served
    cases served

/-- A change is carried out if there is the link and its interfaces are given in the order in which
the link was added, and it is refused otherwise. -/
theorem adjusts_or_refuses (testbed : Testbed) (id : SessionId) (adjustment : LinkAdjustment) :
    (testbed.Adjusts id adjustment ∧ ∃ link, testbed.UsableLink id adjustment.pair link ∧
      adjustment.Ordered link.description) ∨
    (testbed.RefusesAdjustment id adjustment ∧ ∀ link,
      testbed.UsableLink id adjustment.pair link → ¬adjustment.Ordered link.description) := by
  cases outcome : (testbed.serve (.order id (.adjustLink adjustment))).1 with
  | ok reply =>
      obtain ⟨link, usable, ordered⟩ := exists_usableLink_of_serve outcome
      exact Or.inl ⟨adjusts_of_usableLink usable ordered, link, usable, ordered⟩
  | error error =>
      have refuses : testbed.RefusesAdjustment id adjustment := ⟨error, outcome⟩
      exact Or.inr ⟨refuses, fun link usable ordered =>
        not_refusesAdjustment_of_adjusts (adjusts_of_usableLink usable ordered) refuses⟩

theorem UsableLink.unique {pair : Pair NodeId} {link other : SessionLink}
    (usable : testbed.UsableLink id pair link) (alsoUsable : testbed.UsableLink id pair other) :
    link = other := by
  obtain ⟨session, live, linked⟩ := usable
  obtain ⟨same, sameLive, sameLinked⟩ := alsoUsable
  cases live.symm.trans sameLive
  exact Option.some.inj (linked.symm.trans sameLinked)

/-- A link is stored under the pair of its nodes. -/
theorem UsableLink.pair_eq (coherent : ∀ id session, testbed.session? id = some session →
    session.Coherent) {pair : Pair NodeId} {link : SessionLink}
    (usable : testbed.UsableLink id pair link) : link.description.pair = pair := by
  obtain ⟨session, live, linked⟩ := usable
  exact (coherent id session (usable_eq_ok_iff.mp live).1).links pair link linked

variable {first second : NodeId}

/-- A change from the other end is refused if the two interfaces of the link differ in number. -/
theorem EitherEnd.interfaces_eq (either : testbed.EitherEnd id first second) {link : SessionLink}
    (usable : testbed.UsableLink id (.of first second) link) :
    link.description.firstInterface.id = link.description.secondInterface.id := by
  let adjustment : LinkAdjustment := ⟨first, second, link.description.firstInterface.id,
    link.description.secondInterface.id, link.loss⟩
  have adjusts : testbed.Adjusts id adjustment := adjusts_of_usableLink usable ⟨rfl, rfl⟩
  rcases either.alike link.description.firstInterface.id link.description.secondInterface.id
    link.loss with ⟨-, turnedAdjusts⟩ | ⟨refuses, -⟩
  · obtain ⟨found, foundUsable, firstSame, -⟩ := exists_usableLink_of_serve turnedAdjusts.1
    rw [adjustment.pair_turned] at foundUsable
    cases usable.unique foundUsable
    exact firstSame.symm
  · exact absurd refuses (not_refusesAdjustment_of_adjusts adjusts)

/-- If both interfaces have one number, it makes no difference in which order they are given. -/
theorem eitherEnd_of_interfaces_eq (coherent : ∀ id session,
    testbed.session? id = some session → session.Coherent)
    (alike : ∀ link, testbed.UsableLink id (.of first second) link →
      link.description.firstInterface.id = link.description.secondInterface.id) :
    testbed.EitherEnd id first second where
  alike firstInterface secondInterface loss := by
    intro adjustment
    rcases adjusts_or_refuses testbed id adjustment with
      ⟨adjusts, link, usable, firstSame, secondSame⟩ | ⟨refuses, unordered⟩
    · have same := alike link usable
      have turnedUsable : testbed.UsableLink id adjustment.turned.pair link :=
        adjustment.pair_turned ▸ usable
      exact Or.inl ⟨adjusts, adjusts_of_usableLink turnedUsable
        ⟨secondSame.trans same.symm, firstSame.trans same⟩⟩
    · rcases adjusts_or_refuses testbed id adjustment.turned with
        ⟨-, link, turnedUsable, firstSame, secondSame⟩ | ⟨turnedRefuses, -⟩
      · have usable : testbed.UsableLink id adjustment.pair link :=
          adjustment.pair_turned ▸ turnedUsable
        have same := alike link usable
        exact absurd ⟨secondSame.trans same.symm, firstSame.trans same⟩ (unordered link usable)
      · exact Or.inr ⟨refuses, turnedRefuses⟩
  own firstInterface secondInterface loss := by
    intro adjustment served
    obtain ⟨link, usable, firstSame, secondSame⟩ := exists_usableLink_of_serve served
    have same := alike link usable
    refine ⟨link, usable, ?_⟩
    rcases Pair.of_eq_of_iff.mp (usable.pair_eq coherent) with
      ⟨firstNode, secondNode⟩ | ⟨firstNode, secondNode⟩
    · exact Or.inl ⟨firstNode.symm, firstSame, secondNode.symm, secondSame⟩
    · exact Or.inr ⟨secondNode.symm, firstSame.trans same, firstNode.symm,
        secondSame.trans same.symm⟩

/-- Whatever a testbed has been asked for, it carries out a change of a link that can still be used
if the interfaces come in the order in which the link was added, and it refuses all other changes.
So a link can be changed from either end exactly if its interfaces have the same number. -/
theorem eitherEnd_iff (files : Table FileName String) (requests : List Request) (id : SessionId) :
    let testbed := (fresh files).serveAll requests
    (∀ adjustment,
      (testbed.Adjusts id adjustment ∧ ∃ link, testbed.UsableLink id adjustment.pair link ∧
        adjustment.Ordered link.description) ∨
      (testbed.RefusesAdjustment id adjustment ∧ ∀ link,
        testbed.UsableLink id adjustment.pair link → ¬adjustment.Ordered link.description)) ∧
    ∀ first second, testbed.EitherEnd id first second ↔
      ∀ link, testbed.UsableLink id (.of first second) link →
        link.description.firstInterface.id = link.description.secondInterface.id := by
  intro testbed
  refine ⟨adjusts_or_refuses testbed id, fun first second => ⟨?_, ?_⟩⟩
  · intro either link usable
    exact either.interfaces_eq usable
  · exact eitherEnd_of_interfaces_eq (coherent_serveAll files requests)

/-- A link whose interfaces are numbered 0 and 1 cannot be changed from its other end, and is
changed from there with the interfaces of its nodes mixed up. -/
theorem exists_not_eitherEnd :
    let node (id : NodeId) : NodeDescription := ⟨id, "n", "DTN", ⟨0, 0⟩⟩
    let interface (id : InterfaceId) : Interface := ⟨id, .ofSequence 0, ⟨#v[10, 0, 0, 20]⟩, 24⟩
    let requests : List Request := [.createSession, .order 1 (.addNode (node 1)),
      .order 1 (.addNode (node 2)), .order 1 (.addLink ⟨1, 2, interface 0, interface 1, Loss.down⟩)]
    let testbed := (fresh ∅).serveAll requests
    testbed.Adjusts 1 ⟨1, 2, 0, 1, Loss.up⟩ ∧ testbed.RefusesAdjustment 1 ⟨2, 1, 1, 0, Loss.up⟩ ∧
      testbed.Adjusts 1 ⟨2, 1, 0, 1, Loss.up⟩ ∧ ¬testbed.EitherEnd 1 1 2 := by
  intro node interface requests testbed
  have adjusts : testbed.Adjusts 1 ⟨1, 2, 0, 1, Loss.up⟩ := by decide +kernel
  have refuses : testbed.RefusesAdjustment 1 ⟨2, 1, 1, 0, Loss.up⟩ :=
    ⟨.refused .adjustLink (.interfaceMismatch (.of 2 1)), by decide +kernel⟩
  refine ⟨adjusts, refuses, by decide +kernel, fun either => ?_⟩
  rcases either.alike 0 1 Loss.up with ⟨-, turnedAdjusts⟩ | ⟨refusesToo, -⟩
  · exact not_refusesAdjustment_of_adjusts turnedAdjusts refuses
  · exact not_refusesAdjustment_of_adjusts adjusts refusesToo

end Testbed

end ContactReplay
