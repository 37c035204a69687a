import ContactReplay.Proofs.Replay.Linking

/-!
# Configuring nodes

Every node with a configuration is a node of the session, and no configuration is made twice, so
configuring always ends well.  It leaves the address book, the links and the names of the nodes as
they are.
-/

namespace ContactReplay

namespace Conductor

/-- The address book, the links and the names stay as they are, whatever else happens before a
replay runs. -/
structure Settled (files : Table FileName String) (id : SessionId) (registry : Registry)
    (addresses : AddressBook) (session : Session) (stand : Stand) : Prop where
  holds : stand.Holds files id session
  registered : stand.conductor.registry = registry
  booked : stand.conductor.addresses = addresses
  closed : stand.conductor.openEdges = ∅
  named : session.Named registry
  linked : Linked addresses session fun _ => Loss.down

/-- Configuring has come as far as the nodes `past`, newest first. -/
structure Configuring (files : Table FileName String) (id : SessionId) (registry : Registry)
    (addresses : AddressBook) (nodes past : List NodeId) (session : Session) (stand : Stand) : Prop
    extends Settled files id registry addresses session stand where
  present : ∀ node ∈ nodes, session.nodes.contains node = true
  configured : ∀ node, stand.conductor.daemons.configured.contains node = true → node ∈ past

/-- The session with another text of a file of a node. -/
def withFile (session : Session) (node : NodeId) (found : SessionNode) (name : FileName)
    (text : String) : Session :=
  { session with
    nodes := session.nodes.insert node { found with files := found.files.insert name text } }

section WithFile

variable {files : Table FileName String} {session : Session} {node : NodeId} {found : SessionNode}

theorem carryOut_setFile (held : session.nodes.get? node = some found) (name : FileName)
    (text : String) :
    session.carryOut files (.setFile node name text) =
      .ok ((), withFile session node found name text) := by
  rw [Session.carryOut, Session.setFile, held]
  rfl

theorem contains_withFile {name : FileName} {text : String} {other : NodeId}
    (present : session.nodes.contains other = true) :
    (withFile session node found name text).nodes.contains other = true :=
  Table.contains_insert.mpr (Or.inr present)

theorem named_withFile {registry : Registry} (named : session.Named registry)
    (held : session.nodes.get? node = some found) (name : FileName) (text : String) :
    (withFile session node found name text).Named registry := by
  intro asked other bound
  obtain ⟨old, oldHeld, sameName⟩ := named asked other bound
  by_cases same : other = node
  · subst same
    rw [held] at oldHeld
    obtain rfl := Option.some.inj oldHeld
    exact ⟨_, Table.get?_insert_self _ _ _, sameName⟩
  · exact ⟨old, (Table.get?_insert_of_ne _ _ same).trans oldHeld, sameName⟩

end WithFile

section Configure

variable {files : Table FileName String} {id : SessionId} {registry : Registry}
  {addresses : AddressBook} {nodes past : List NodeId} {session : Session} {stand : Stand}

theorem Configuring.decides_configureNode
    (configuring : Configuring files id registry addresses nodes past session stand)
    {node : NodeId} (member : node ∈ nodes) (pending : node ∉ past) (template : String) :
    Course.Decides (configureNode id node template) stand True fun _ next => ∃ written,
      Configuring files id registry addresses nodes (node :: past) written next := by
  have unconfigured : ¬ stand.conductor.daemons.configured.contains node = true :=
    fun configured => pending (configuring.configured node configured)
  rw [configureNode]
  apply Course.decides_bind_of_ok (Course.perform_get stand)
  rw [Configurator.configure, if_neg unconfigured]
  apply Course.decides_bind_of_ok (Course.perform_modify _ _)
  apply Course.decides_bind_of_ok (Course.perform_attempt _ _)
  apply Course.decides_bind_of_ok (Course.perform_get _)
  obtain ⟨found, inSession⟩ := Option.isSome_iff_exists.mp (configuring.present node member)
  obtain ⟨afterStoring, storedOk, holdsStored⟩ :=
    (configuring.holds.conducted _).perform_order (carryOut_setFile inSession _ _)
      configuring.holds.usable
  apply Course.decides_bind_of_ok storedOk
  refine Course.decides_of_ok (Course.perform_modify _ _) trivial ⟨_, ⟨holdsStored.conducted _,
    configuring.registered, configuring.booked, configuring.closed,
    named_withFile configuring.named inSession _ _,
    ⟨configuring.linked.linked, configuring.linked.unlinked⟩⟩, ?_, ?_⟩
  · intro other inNodes
    exact contains_withFile (configuring.present other inNodes)
  · intro other configured
    rcases Table.contains_insert.mp configured with rfl | before
    · exact List.mem_cons_self
    · exact List.mem_cons_of_mem _ (configuring.configured other before)

/-- Configuring ends well and keeps addresses and links. -/
theorem Linking.decides_configureAll {chosen : Settings} {lines : List EdgeLine}
    (linking : Linking chosen files id registry lines session stand) :
    Course.Decides (configureAll id) stand True fun _ next => ∃ written,
      Settled files id registry stand.conductor.addresses written next := by
  have begins : Configuring files id registry stand.conductor.addresses
      stand.conductor.configs.keys [] session stand := by
    refine ⟨⟨linking.holds, linking.registered, rfl, linking.closed,
      linking.registered ▸ linking.cast.named, linking.linked⟩, ?_, ?_⟩
    · exact fun node member =>
        linking.cast.configured node (Table.contains_iff_mem_keys.mpr member)
    · intro node configured
      rw [linking.unconfigured] at configured
      cases configured
  rw [configureAll]
  apply Course.decides_bind_of_ok (Course.perform_get stand)
  have decides := @Course.decides_forM (NodeId × String) stand.conductor.configs.entries
    (fun entry => configureNode id entry.1 entry.2) (fun _ _ => True)
    (fun past next => ∃ written, Configuring files id registry stand.conductor.addresses
      stand.conductor.configs.keys (past.map (·.1)) written next)
    (by
      rintro past ⟨node, template⟩ rest parted current ⟨written, configuring⟩
      have distinct := Table.keys_nodup stand.conductor.configs
      have member : node ∈ stand.conductor.configs.keys := by
        rw [Table.keys, ← parted]
        simp
      rw [Table.keys, ← parted, List.map_append, List.map_cons] at distinct
      have pending : node ∉ past.map (·.1) := by
        intro before
        refine (List.nodup_append.mp distinct).2.2 node ?_ node List.mem_cons_self rfl
        simpa using before
      exact configuring.decides_configureNode member pending template)
    stand ⟨session, begins⟩
  refine (decides.congr ?_).imp fun _ next done => ?_
  · exact iff_of_true (succession_of_forall fun _ _ => trivial) trivial
  · obtain ⟨written, configuring⟩ := done
    exact ⟨written, configuring.toSettled⟩

end Configure

end Conductor

end ContactReplay
