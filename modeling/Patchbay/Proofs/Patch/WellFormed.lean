import Patchbay.Patch.Basic
import Patchbay.Proofs.OrderedMap
import Patchbay.Proofs.Outcome

/-! Well-formed patches. Every change of a patch that succeeds keeps the structure of the patch, and
one that fails leaves the patch as it was, so whatever is built by changes is well-formed. -/

namespace Patchbay.Patch

/-- Entries are stored under the names that they carry, links are attached at both ends, an input
has one link or one literal at most, and the keys of custom pins are no terminals. -/
structure WellFormed (patch : Patch) : Prop where
  nodes_keyed : ∀ id node, patch.nodes.get? id = some node → node.id = id
  links_keyed : ∀ id link, patch.links.get? id = some link → link.id = id
  pins_keyed : ∀ key pin, patch.pins.get? key = some pin → pin.key = key
  attached : ∀ id link, patch.links.get? id = some link →
    patch.nodes.contains link.input.node ∧ patch.nodes.contains link.output.node
  single : ∀ id other link rival, patch.links.get? id = some link →
    patch.links.get? other = some rival → id ≠ other → link.input ≠ rival.input
  unbound : ∀ id link node, patch.links.get? id = some link →
    patch.nodes.get? link.input.node = some node → node.bound.get? link.input.pin = none
  distinct : ∀ key pin id node, patch.pins.get? key = some pin → patch.nodes.get? id = some node →
    node.isTerminal → key.text ≠ id.text

variable {patch after : Patch}

/-! ### When changes succeed -/

theorem isLinked_iff {input : Endpoint} :
    patch.isLinked input ↔ ∃ id link, patch.links.get? id = some link ∧ link.input = input := by
  simp only [isLinked, List.any_eq_true, OrderedMap.mem_values_iff, decide_eq_true_eq]
  exact ⟨fun ⟨link, ⟨id, h⟩, e⟩ => ⟨id, link, h, e⟩, fun ⟨id, link, h, e⟩ => ⟨link, ⟨id, h⟩, e⟩⟩

theorem insertNode_eq_ok_iff {node : Node} :
    patch.insertNode node = .ok after ↔
      (node.isTerminal → patch.pins.get? node.id.toPinKey = none) ∧
      (∀ key value, node.bound.get? key = some value → ¬ patch.isLinked ⟨node.id, key⟩) ∧
      after = { patch with nodes := patch.nodes.insert node.id node } := by
  have hfree : (node.isTerminal && patch.pins.contains node.id.toPinKey) = false ↔
      (node.isTerminal → patch.pins.get? node.id.toPinKey = none) := by
    rw [← OrderedMap.contains_eq_false_iff]
    cases node.isTerminal <;> simp
  have hbound : (node.bound.keys.find? fun key => patch.isLinked ⟨node.id, key⟩) = none ↔
      ∀ key value, node.bound.get? key = some value → ¬ patch.isLinked ⟨node.id, key⟩ := by
    simp only [List.find?_eq_none, OrderedMap.mem_keys_iff, OrderedMap.contains_iff,
      forall_exists_index]
  unfold insertNode
  rw [Outcome.ite_error_eq_ok, hfree, ← hbound, and_congr_right_iff]
  intro _
  cases node.bound.keys.find? fun key => patch.isLinked ⟨node.id, key⟩ with
  | some key => exact ⟨nofun, fun h => nomatch h.1⟩
  | none => exact ⟨fun h => ⟨rfl, (Except.ok.inj h).symm⟩, fun h => congrArg _ h.2.symm⟩

theorem insertLink_eq_ok_iff {link : Link} :
    patch.insertLink link = .ok after ↔
      (patch.nodes.contains link.input.node ∧ patch.nodes.contains link.output.node) ∧
      (∀ id other, patch.links.get? id = some other → other.id ≠ link.id →
        other.input ≠ link.input) ∧
      (∀ node, patch.nodes.get? link.input.node = some node →
        node.bound.get? link.input.pin = none) ∧
      after = { patch with links := patch.links.insert link.id link } := by
  have hends : ([link.input, link.output].find? fun e => !patch.nodes.contains e.node) = none ↔
      patch.nodes.contains link.input.node ∧ patch.nodes.contains link.output.node := by
    simp [List.find?_eq_none]
  have htaken : (patch.links.values.any fun other =>
        other.id ≠ link.id && other.input = link.input) = false ↔
      ∀ id other, patch.links.get? id = some other → other.id ≠ link.id →
        other.input ≠ link.input := by
    simp only [List.any_eq_false, OrderedMap.mem_values_iff, Bool.and_eq_true, decide_eq_true_eq,
      forall_exists_index, not_and]
    exact forall_comm
  have hbound : patch.isBound link.input = false ↔
      ∀ node, patch.nodes.get? link.input.node = some node →
        node.bound.get? link.input.pin = none := by
    simp only [isBound, Option.any_eq_false, Node.isBound, OrderedMap.contains_eq_false_iff]
  unfold insertLink
  rw [← hends]
  cases [link.input, link.output].find? fun e => !patch.nodes.contains e.node with
  | some e => exact ⟨nofun, fun h => nomatch h.1⟩
  | none =>
    show (if _ then _ else _) = _ ↔ _
    rw [Outcome.ite_error_eq_ok, Bool.or_eq_false_iff, htaken, hbound, and_assoc, Except.ok.injEq,
      eq_comm (a := after)]
    exact ⟨fun h => ⟨rfl, h⟩, And.right⟩

theorem insertPin_eq_ok_iff {pin : Pin} :
    patch.insertPin pin = .ok after ↔
      patch.pins.get? pin.key = none ∧
      (∀ node, patch.nodes.get? pin.key.toNodeId = some node → ¬ node.isTerminal) ∧
      after = { patch with pins := patch.pins.insert pin.key pin } := by
  have hterminal : patch.isTerminalKey pin.key = false ↔
      ∀ node, patch.nodes.get? pin.key.toNodeId = some node → ¬ node.isTerminal := by
    simp only [isTerminalKey, Option.any_eq_false, Bool.not_eq_true]
  unfold insertPin
  rw [Outcome.ite_error_eq_ok, Bool.or_eq_false_iff, OrderedMap.contains_eq_false_iff, hterminal,
    and_assoc, Except.ok.injEq, eq_comm (a := after)]

theorem foldlM_insertNode_eq_ok {nodes : List Node}
    (h : nodes.foldlM insertNode patch = .ok after) :
    after =
      { patch with nodes := nodes.foldl (fun m node => m.insert node.id node) patch.nodes } := by
  rw [Outcome.eq_foldl_of_foldlM (fun p node c hc => (insertNode_eq_ok_iff.1 hc).2.2) h]
  refine List.foldl_hom (fun nodes => { patch with nodes }) ?_
  exact fun _ _ => rfl

theorem foldlM_insertLink_eq_ok {links : List Link}
    (h : links.foldlM insertLink patch = .ok after) :
    after =
      { patch with links := links.foldl (fun m link => m.insert link.id link) patch.links } := by
  rw [Outcome.eq_foldl_of_foldlM (fun p link c hc => (insertLink_eq_ok_iff.1 hc).2.2.2) h]
  refine List.foldl_hom (fun links => { patch with links }) ?_
  exact fun _ _ => rfl

theorem foldlM_insertPin_eq_ok {pins : List Pin} (h : pins.foldlM insertPin patch = .ok after) :
    after = { patch with pins := pins.foldl (fun m pin => m.insert pin.key pin) patch.pins } := by
  rw [Outcome.eq_foldl_of_foldlM (fun p pin c hc => (insertPin_eq_ok_iff.1 hc).2.2) h]
  refine List.foldl_hom (fun pins => { patch with pins }) ?_
  exact fun _ _ => rfl

/-- Pins that are inserted one after another have different keys. -/
theorem nodup_of_foldlM_insertPin {pins : List Pin} (h : pins.foldlM insertPin patch = .ok after) :
    (pins.map Pin.key).Nodup := by
  have hfree : ∀ pins : List Pin, ∀ patch : Patch, pins.foldlM insertPin patch = .ok after →
      (pins.map Pin.key).Nodup ∧ ∀ pin ∈ pins, patch.pins.get? pin.key = none := by
    intro pins
    induction pins with
    | nil => exact fun _ _ => ⟨.nil, nofun⟩
    | cons pin pins ih =>
      intro patch h
      obtain ⟨next, hnext, hrest⟩ := Outcome.foldlM_cons_eq_ok.1 h
      obtain ⟨hnew, _, rfl⟩ := insertPin_eq_ok_iff.1 hnext
      obtain ⟨hnodup, hothers⟩ := ih _ hrest
      have hne : ∀ other ∈ pins, other.key ≠ pin.key := by
        intro other hother hkey
        have hnone := hothers other hother
        rw [hkey, OrderedMap.get?_insert_self] at hnone
        exact nomatch hnone
      refine ⟨hnodup.cons fun hmem => ?_, fun other hother => ?_⟩
      · obtain ⟨other, hother, hkey⟩ := List.mem_map.1 hmem
        exact hne other hother hkey
      · rcases List.mem_cons.1 hother with rfl | hother
        · exact hnew
        · rw [← OrderedMap.get?_insert_of_ne patch.pins pin (hne other hother)]
          exact hothers other hother
  exact (hfree pins patch h).1

/-! ### What changes keep -/

/-- A patch without nodes, links and pins. -/
theorem wellFormed_new (path : PatchPath) : WellFormed { path } := by
  constructor <;> intros <;> contradiction

theorem WellFormed.insertNode {node : Node} (h : patch.WellFormed)
    (hafter : patch.insertNode node = .ok after) : after.WellFormed := by
  obtain ⟨hpin, hbound, rfl⟩ := insertNode_eq_ok_iff.1 hafter
  constructor
  · intro id found hfound
    rcases OrderedMap.get?_insert_eq_some.1 hfound with ⟨rfl, rfl⟩ | ⟨_, hold⟩
    · rfl
    · exact h.nodes_keyed id found hold
  · exact h.links_keyed
  · exact h.pins_keyed
  · intro id link hlink
    have hends := h.attached id link hlink
    exact ⟨OrderedMap.contains_insert.2 (.inr hends.1), OrderedMap.contains_insert.2 (.inr hends.2)⟩
  · exact h.single
  · intro id link found hlink hfound
    rcases OrderedMap.get?_insert_eq_some.1 hfound with ⟨hid, rfl⟩ | ⟨_, hold⟩
    · -- a literal at a linked input of the new node would have been refused
      by_contra hsome
      obtain ⟨value, hvalue⟩ := Option.ne_none_iff_exists'.1 hsome
      exact hbound _ value hvalue (isLinked_iff.2 ⟨id, link, hlink, by rw [← hid]⟩)
    · exact h.unbound id link found hlink hold
  · intro key pin id found hkey hfound hterminal htext
    rcases OrderedMap.get?_insert_eq_some.1 hfound with ⟨rfl, rfl⟩ | ⟨_, hold⟩
    · have hsame : key = node.id.toPinKey := text_inj.1 htext
      rw [hsame, hpin hterminal] at hkey
      exact nomatch hkey
    · exact h.distinct key pin id found hkey hold hterminal htext

theorem WellFormed.eraseNode (h : patch.WellFormed) (id : NodeId) :
    (patch.eraseNode id).WellFormed := by
  unfold Patch.eraseNode
  split
  · constructor
    · intro other node hnode
      exact h.nodes_keyed other node (OrderedMap.get?_erase_eq_some.1 hnode).2
    · intro other link hlink
      exact h.links_keyed other link (OrderedMap.get?_filter_eq_some.1 hlink).1
    · exact h.pins_keyed
    · intro other link hlink
      obtain ⟨hold, hkept⟩ := OrderedMap.get?_filter_eq_some.1 hlink
      simp only [Link.touches, Bool.not_eq_true', Bool.or_eq_false_iff,
        decide_eq_false_iff_not] at hkept
      obtain ⟨hinput, houtput⟩ := h.attached other link hold
      obtain ⟨source, hsource⟩ := OrderedMap.contains_iff.1 houtput
      obtain ⟨target, htarget⟩ := OrderedMap.contains_iff.1 hinput
      exact ⟨OrderedMap.contains_iff.2 ⟨target, OrderedMap.get?_erase_eq_some.2 ⟨hkept.1, htarget⟩⟩,
        OrderedMap.contains_iff.2 ⟨source, OrderedMap.get?_erase_eq_some.2 ⟨hkept.2, hsource⟩⟩⟩
    · intro one other link rival hlink hrival
      exact h.single one other link rival (OrderedMap.get?_filter_eq_some.1 hlink).1
        (OrderedMap.get?_filter_eq_some.1 hrival).1
    · intro other link node hlink hnode
      exact h.unbound other link node (OrderedMap.get?_filter_eq_some.1 hlink).1
        (OrderedMap.get?_erase_eq_some.1 hnode).2
    · intro key pin other node hpin hnode
      exact h.distinct key pin other node hpin (OrderedMap.get?_erase_eq_some.1 hnode).2
  · exact h

theorem WellFormed.insertLink {link : Link} (h : patch.WellFormed)
    (hafter : patch.insertLink link = .ok after) : after.WellFormed := by
  obtain ⟨hends, htaken, hbound, rfl⟩ := insertLink_eq_ok_iff.1 hafter
  have htaken' : ∀ id other, patch.links.get? id = some other → id ≠ link.id →
      other.input ≠ link.input := by
    intro id other hother hne
    exact htaken id other hother (by rwa [h.links_keyed id other hother])
  constructor
  · exact h.nodes_keyed
  · intro id found hfound
    rcases OrderedMap.get?_insert_eq_some.1 hfound with ⟨rfl, rfl⟩ | ⟨_, hold⟩
    · rfl
    · exact h.links_keyed id found hold
  · exact h.pins_keyed
  · intro id found hfound
    rcases OrderedMap.get?_insert_eq_some.1 hfound with ⟨_, rfl⟩ | ⟨_, hold⟩
    · exact hends
    · exact h.attached id found hold
  · intro id other found rival hfound hrival hne
    rcases OrderedMap.get?_insert_eq_some.1 hfound with ⟨rfl, rfl⟩ | ⟨hid, hold⟩
    · rcases OrderedMap.get?_insert_eq_some.1 hrival with ⟨rfl, _⟩ | ⟨hother, hrold⟩
      · exact absurd rfl hne
      · exact (htaken' other rival hrold hother).symm
    · rcases OrderedMap.get?_insert_eq_some.1 hrival with ⟨rfl, rfl⟩ | ⟨_, hrold⟩
      · exact htaken' id found hold hid
      · exact h.single id other found rival hold hrold hne
  · intro id found node hfound hnode
    rcases OrderedMap.get?_insert_eq_some.1 hfound with ⟨_, rfl⟩ | ⟨_, hold⟩
    · exact hbound node hnode
    · exact h.unbound id found node hold hnode
  · exact h.distinct

theorem WellFormed.eraseLink (h : patch.WellFormed) (id : LinkId) :
    (patch.eraseLink id).WellFormed := by
  have hold : ∀ {other link}, (patch.links.erase id).get? other = some link →
      patch.links.get? other = some link := fun h => (OrderedMap.get?_erase_eq_some.1 h).2
  exact ⟨h.nodes_keyed, fun other link hlink => h.links_keyed other link (hold hlink), h.pins_keyed,
    fun other link hlink => h.attached other link (hold hlink),
    fun one other link rival hlink hrival =>
      h.single one other link rival (hold hlink) (hold hrival),
    fun other link node hlink => h.unbound other link node (hold hlink), h.distinct⟩

theorem WellFormed.insertPin {pin : Pin} (h : patch.WellFormed)
    (hafter : patch.insertPin pin = .ok after) : after.WellFormed := by
  obtain ⟨_, hterminal, rfl⟩ := insertPin_eq_ok_iff.1 hafter
  refine ⟨h.nodes_keyed, h.links_keyed, ?_, h.attached, h.single, h.unbound, ?_⟩
  · intro key found hfound
    rcases OrderedMap.get?_insert_eq_some.1 hfound with ⟨rfl, rfl⟩ | ⟨_, hold⟩
    · rfl
    · exact h.pins_keyed key found hold
  · intro key found id node hfound hnode hisTerminal htext
    rcases OrderedMap.get?_insert_eq_some.1 hfound with ⟨rfl, rfl⟩ | ⟨_, hold⟩
    · have hsame : id = pin.key.toNodeId := text_inj.1 htext.symm
      exact hterminal node (hsame ▸ hnode) hisTerminal
    · exact h.distinct key found id node hold hnode hisTerminal htext

theorem WellFormed.erasePin (h : patch.WellFormed) (key : PinKey) :
    (patch.erasePin key).WellFormed :=
  ⟨h.nodes_keyed, h.links_keyed,
    fun other pin hpin => h.pins_keyed other pin (OrderedMap.get?_erase_eq_some.1 hpin).2,
    h.attached, h.single, h.unbound, fun other pin id node hpin =>
      h.distinct other pin id node (OrderedMap.get?_erase_eq_some.1 hpin).2⟩

/-- Path, label and implementations play no part. -/
theorem WellFormed.retitle (h : patch.WellFormed) (path : PatchPath) (label : Option String)
    (impls : OrderedMap String String) : WellFormed { patch with path, label, impls } :=
  ⟨h.nodes_keyed, h.links_keyed, h.pins_keyed, h.attached, h.single, h.unbound, h.distinct⟩

/-! ### Runs of changes -/

/-- One change of a patch. -/
inductive Change where
  | setLabel (label : String)
  | addImpl (target source : String)
  | insertNode (node : Node)
  | eraseNode (id : NodeId)
  | insertLink (link : Link)
  | eraseLink (id : LinkId)
  | insertPin (pin : Pin)
  | erasePin (key : PinKey)

/-- The patch after one change, if that succeeds. -/
def change (patch : Patch) : Change → Except StructuralError Patch
  | .setLabel label => .ok { patch with label := some label }
  | .addImpl target source => .ok (patch.addImpl target source)
  | .insertNode node => patch.insertNode node
  | .eraseNode id => .ok (patch.eraseNode id)
  | .insertLink link => patch.insertLink link
  | .eraseLink id => .ok (patch.eraseLink id)
  | .insertPin pin => patch.insertPin pin
  | .erasePin key => .ok (patch.erasePin key)

/-- The patch after one change, or as it was if the change fails. -/
def attempt (patch : Patch) (c : Change) : Patch :=
  match patch.change c with
  | .ok after => after
  | .error _ => patch

/-- The patch after changes that are attempted one after another. -/
def run (patch : Patch) (changes : List Change) : Patch := changes.foldl attempt patch

theorem WellFormed.change {c : Change} (h : patch.WellFormed)
    (hafter : patch.change c = .ok after) : after.WellFormed := by
  cases c with
  | setLabel label =>
    cases hafter
    exact h.retitle patch.path (some label) patch.impls
  | addImpl target source =>
    cases hafter
    exact h.retitle patch.path patch.label (patch.impls.insert target source)
  | insertNode node => exact h.insertNode hafter
  | eraseNode id =>
    cases hafter
    exact h.eraseNode id
  | insertLink link => exact h.insertLink hafter
  | eraseLink id =>
    cases hafter
    exact h.eraseLink id
  | insertPin pin => exact h.insertPin hafter
  | erasePin key =>
    cases hafter
    exact h.erasePin key

theorem WellFormed.attempt (h : patch.WellFormed) (c : Change) : (patch.attempt c).WellFormed := by
  unfold Patch.attempt
  split
  · rename_i hafter
    exact h.change hafter
  · exact h

theorem WellFormed.run (h : patch.WellFormed) (changes : List Change) :
    (patch.run changes).WellFormed := by
  induction changes generalizing patch with
  | nil => exact h
  | cons c changes ih => exact ih (h.attempt c)

end Patchbay.Patch
