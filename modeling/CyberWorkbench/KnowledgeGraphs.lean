import CyberWorkbench.PythonValues
import CyberWorkbench.LastWrite
import CyberWorkbench.FirstWrite
import Mathlib.Data.List.Basic
import Mathlib.Data.String.Basic

/-!
# Knowledge graphs

The two graphs the knowledge pages show: the one built from a search result
under a cap on its nodes, and the one a LightRAG graph is normalised to.  The
renderer of the client indexes nodes and edges by id, so it relies on ids
being distinct and on both ends of every edge being nodes.

An edge is named by the digest of its two labels, sorted and joined by a NUL
character.  The digest is a parameter; so is `str` on values that are no text.
-/

namespace Workbench.KnowledgeGraphs

open PythonValues

structure GraphNode where
  id : String
  labels : List String
  properties : Dict

structure GraphEdge where
  id : String
  type : Option String
  source : String
  target : String
  properties : Dict

structure KnowledgeGraph where
  nodes : List GraphNode := []
  edges : List GraphEdge := []
  isTruncated : Bool := false

namespace KnowledgeGraph

def nodeIds (g : KnowledgeGraph) : List String := g.nodes.map GraphNode.id

def edgeIds (g : KnowledgeGraph) : List String := g.edges.map GraphEdge.id

end KnowledgeGraph

/-! ### Relationship ids -/

/-- `sorted((source, target))`. -/
def sortedPair (source target : String) : String × String :=
  if target < source then (target, source) else (source, target)

/-- The text that is hashed: the sorted labels around a NUL. -/
def pairText (source target : String) : String :=
  (sortedPair source target).1 ++ "\x00" ++ (sortedPair source target).2

/-- `_knowledge_relationship_id` -/
def knowledgeRelationshipId (digest : String → String) (source target : String) : String :=
  "knowledge-relation:" ++ digest (pairText source target)

/-! ### The normalised graph -/

/-- The label of a node: its first label that is not blank, or its id. -/
def nodeLabel (node : GraphNode) : String :=
  match node.labels.find? (fun item => strip item != "") with
  | some item => strip item
  | none => node.id

/-- One round of the loop over the nodes: the label is filed under the node's
id, and the first node of a label is kept. -/
def normalizeNode (acc : List (String × String) × List GraphNode) (node : GraphNode) :
    List (String × String) × List GraphNode :=
  (LastWrite.write node.id (nodeLabel node) acc.1,
    FirstWrite.addNew GraphNode.id acc.2
      { id := nodeLabel node, labels := [nodeLabel node], properties := node.properties })

/-- One round of the loop over the edges. -/
def normalizeEdge (digest : String → String) (nodeIds : List (String × String))
    (edges : List GraphEdge) (edge : GraphEdge) : List GraphEdge :=
  match LastWrite.lookup nodeIds edge.source, LastWrite.lookup nodeIds edge.target with
  | some source, some target =>
      FirstWrite.addNew GraphEdge.id edges
        { id := knowledgeRelationshipId digest source target
          type := edge.type
          source := source
          target := target
          properties := edge.properties }
  | _, _ => edges

/-- `_normalize_knowledge_graph` -/
def normalizeKnowledgeGraph (digest : String → String) (graph : KnowledgeGraph) :
    KnowledgeGraph :=
  let named := graph.nodes.foldl normalizeNode ([], [])
  { nodes := named.2
    edges := graph.edges.foldl (normalizeEdge digest named.1) []
    isTruncated := graph.isTruncated }

/-! ### The graph of a search -/

/-- `str(value)`. -/
def textOf (render : Value → String) : Value → String
  | .str s => s
  | value => render value

/-- `str(value or "").strip()`. -/
def nameText (render : Value → String) (value : Value) : String :=
  strip (textOf render (value.or (.str "")))

/-- `add_node` -/
def addNode (render : Value → String) (maxNodes : Nat) (g : KnowledgeGraph)
    (entityName : Value) (properties : Dict) : Bool × KnowledgeGraph :=
  let label := nameText render entityName
  if label = "" then (false, g)
  else if label ∈ g.nodeIds then (true, g)
  else if maxNodes ≤ g.nodes.length then (false, { g with isTruncated := true })
  else (true, { g with
    nodes := g.nodes ++ [{ id := label, labels := [label], properties := properties }] })

/-- One round of the loop over the entities. -/
def addEntity (render : Value → String) (maxNodes : Nat) (g : KnowledgeGraph) :
    Value → KnowledgeGraph
  | .dict entity =>
      (addNode render maxNodes g (Dict.get entity "entity_name")
        (entity.filter (fun entry => entry.1 != "entity_name"))).2
  | _ => g

/-- One round of the loop over the relationships. -/
def addRelationship (digest : String → String) (render : Value → String) (maxNodes : Nat)
    (g : KnowledgeGraph) : Value → KnowledgeGraph
  | .dict relationship =>
      let source := nameText render (Dict.get relationship "src_id")
      let target := nameText render (Dict.get relationship "tgt_id")
      if source = "" ∨ target = "" then g
      else
        let first := addNode render maxNodes g (.str source) []
        if first.1 = false then first.2
        else
          let second := addNode render maxNodes first.2 (.str target) []
          if second.1 = false then second.2
          else { second.2 with
            edges := FirstWrite.addNew GraphEdge.id second.2.edges
              { id := knowledgeRelationshipId digest source target
                type := some (textOf render
                  ((Dict.get relationship "keywords").or (.str "related")))
                source := source
                target := target
                properties := relationship.filter
                  (fun entry => !(["src_id", "tgt_id"].contains entry.1)) } }
  | _ => g

/-- `value if isinstance(value, list) else []`. -/
def listOrEmpty : Value → List Value
  | .list items => items
  | _ => []

/-- `isinstance(total, int) and total > count`; a truth value is an int. -/
def totalExceeds (total : Value) (count : Nat) : Bool :=
  match total with
  | .bool b => decide (count < b.toNat)
  | .number mantissa 0 => decide ((count : Int) < mantissa)
  | _ => false

/-- The cap of the search itself, read off the totals it reports. -/
def markTotals (processingInfo : Value) (g : KnowledgeGraph) : KnowledgeGraph :=
  match processingInfo with
  | .dict info =>
      { g with
        isTruncated := g.isTruncated ||
          totalExceeds (Dict.get info "total_entities_found") g.nodes.length ||
          totalExceeds (Dict.get info "total_relations_found") g.edges.length }
  | _ => g

/-- `metadata.get("processing_info") if isinstance(metadata, dict) else None`. -/
def processingInfo (result : Dict) : Value :=
  match Dict.get result "metadata" with
  | .dict metadata => Dict.get metadata "processing_info"
  | _ => .none

/-- The entities of a result whose data is a dictionary. -/
def entitiesOf (result : Dict) : List Value :=
  match Dict.get result "data" with
  | .dict data => listOrEmpty (Dict.get data "entities")
  | _ => []

/-- The relationships of a result whose data is a dictionary. -/
def relationshipsOf (result : Dict) : List Value :=
  match Dict.get result "data" with
  | .dict data => listOrEmpty (Dict.get data "relationships")
  | _ => []

/-- `_knowledge_graph_from_search_result` -/
def knowledgeGraphFromSearchResult (digest : String → String) (render : Value → String)
    (result : Dict) (maxNodes : Nat) : KnowledgeGraph :=
  match Dict.get result "data" with
  | .dict _ =>
      let withEntities := (entitiesOf result).foldl (addEntity render maxNodes) {}
      let withRelationships :=
        (relationshipsOf result).foldl (addRelationship digest render maxNodes) withEntities
      markTotals (processingInfo result) withRelationships
  | _ => {}

/-! ### Unordered pairs -/

/-- The same two labels, in one order or the other. -/
def SamePair (p q : String × String) : Prop := p = q ∨ p = q.swap

/-- Labels free of the separator. -/
def FreeOfNul (pairs : List (String × String)) : Prop :=
  ∀ p ∈ pairs, '\x00' ∉ p.1.toList ∧ '\x00' ∉ p.2.toList

/-- The digest takes the texts of these pairs apart. -/
def CollisionFree (digest : String → String) (pairs : List (String × String)) : Prop :=
  ∀ p ∈ pairs, ∀ q ∈ pairs,
    digest (pairText p.1 p.2) = digest (pairText q.1 q.2) → pairText p.1 p.2 = pairText q.1 q.2

theorem sortedPair_swap (source target : String) :
    sortedPair target source = sortedPair source target := by
  unfold sortedPair
  rcases lt_trichotomy source target with h | rfl | h
  · rw [if_pos h, if_neg (lt_asymm h)]
  · rfl
  · rw [if_neg (lt_asymm h), if_pos h]

theorem samePair_sortedPair (p : String × String) : SamePair (sortedPair p.1 p.2) p := by
  unfold sortedPair
  split
  · exact .inr rfl
  · exact .inl rfl

/-- The two ends of a pair are the two ends of its sorted pair. -/
theorem SamePair.of_sortedPair {p q : String × String}
    (h : sortedPair p.1 p.2 = sortedPair q.1 q.2) : SamePair p q := by
  have hp := samePair_sortedPair p
  have hq := samePair_sortedPair q
  rw [h] at hp
  rcases hp with hp | hp <;> rcases hq with hq | hq
  · exact .inl (hp.symm.trans hq)
  · exact .inr (hp.symm.trans hq)
  · exact .inr (by rw [← hq, hp, Prod.swap_swap])
  · exact .inl (Prod.swap_injective (hp.symm.trans hq))

/-- **One id for both orders** of a pair. -/
theorem knowledgeRelationshipId_of_samePair (digest : String → String) {p q : String × String}
    (h : SamePair p q) :
    knowledgeRelationshipId digest p.1 p.2 = knowledgeRelationshipId digest q.1 q.2 := by
  unfold knowledgeRelationshipId pairText
  rcases h with rfl | rfl
  · rfl
  · rw [Prod.fst_swap, Prod.snd_swap, sortedPair_swap]

/-- The sorted pair of labels that are free of NUL is free of NUL on its left. -/
theorem nul_not_mem_sortedPair {p : String × String}
    (h : '\x00' ∉ p.1.toList ∧ '\x00' ∉ p.2.toList) :
    '\x00' ∉ (sortedPair p.1 p.2).1.toList ∧ '\x00' ∉ (sortedPair p.1 p.2).2.toList := by
  unfold sortedPair
  split
  · exact ⟨h.2, h.1⟩
  · exact h

/-- Split at the first NUL, the hashed text gives the sorted pair back. -/
theorem sortedPair_of_pairText {p q : String × String}
    (hp : '\x00' ∉ p.1.toList ∧ '\x00' ∉ p.2.toList)
    (hq : '\x00' ∉ q.1.toList ∧ '\x00' ∉ q.2.toList)
    (h : pairText p.1 p.2 = pairText q.1 q.2) :
    sortedPair p.1 p.2 = sortedPair q.1 q.2 := by
  have hp' := nul_not_mem_sortedPair hp
  have hq' := nul_not_mem_sortedPair hq
  have hlist := congrArg String.toList h
  unfold pairText at hlist
  rw [String.toList_append, String.toList_append, String.toList_append, String.toList_append,
    List.append_assoc, List.append_assoc] at hlist
  obtain ⟨hleft, -, hright⟩ := (List.append_cons_inj_of_notMem hp'.1 hp'.2).mp hlist
  exact Prod.ext (String.toList_injective hleft) (String.toList_injective hright)

/-- **The id tells the pairs apart**: a digest without collisions on NUL-free
labels. -/
theorem samePair_of_knowledgeRelationshipId {digest : String → String}
    {pairs : List (String × String)} (hfree : FreeOfNul pairs)
    (hcollision : CollisionFree digest pairs) {p q : String × String} (hp : p ∈ pairs)
    (hq : q ∈ pairs)
    (h : knowledgeRelationshipId digest p.1 p.2 = knowledgeRelationshipId digest q.1 q.2) :
    SamePair p q := by
  have hdigest : digest (pairText p.1 p.2) = digest (pairText q.1 q.2) :=
    String.append_right_inj _ |>.mp h
  exact .of_sortedPair
    (sortedPair_of_pairText (hfree p hp) (hfree q hq) (hcollision p hp q hq hdigest))

/-! ### Edges filed under their ids -/

/-- Edges between these pairs, each under the id of its ends, no id twice. -/
structure Filed (digest : String → String) (pairs : List (String × String))
    (edges : List GraphEdge) : Prop where
  nodup : (edges.map GraphEdge.id).Nodup
  ends : ∀ e ∈ edges, (e.source, e.target) ∈ pairs
  named : ∀ e ∈ edges, e.id = knowledgeRelationshipId digest e.source e.target

namespace Filed

variable {digest : String → String} {pairs : List (String × String)} {edges : List GraphEdge}

theorem nil (digest : String → String) (pairs : List (String × String)) :
    Filed digest pairs [] := ⟨List.nodup_nil, by simp, by simp⟩

/-- One more edge of one of the pairs. -/
theorem addNew (h : Filed digest pairs edges) {edge : GraphEdge}
    (hends : (edge.source, edge.target) ∈ pairs)
    (hid : edge.id = knowledgeRelationshipId digest edge.source edge.target) :
    Filed digest pairs (FirstWrite.addNew GraphEdge.id edges edge) where
  nodup := FirstWrite.nodup_addNew h.nodup edge
  ends := by
    intro e he
    rcases FirstWrite.mem_of_mem_addNew he with hmem | rfl
    · exact h.ends e hmem
    · exact hends
  named := by
    intro e he
    rcases FirstWrite.mem_of_mem_addNew he with hmem | rfl
    · exact h.named e hmem
    · exact hid

/-- **At most one edge per unordered pair**, whatever the digest is. -/
theorem onePerPair (h : Filed digest pairs edges) :
    edges.Pairwise (fun e e' => ¬ SamePair (e.source, e.target) (e'.source, e'.target)) := by
  refine FirstWrite.pairwise_of_nodup h.nodup ?_
  intro e he e' he' hne hsame
  have hid := knowledgeRelationshipId_of_samePair digest hsame
  rw [h.named e he, h.named e' he'] at hne
  exact hne hid

/-- An id that is filed stands for the pair it was computed from. -/
theorem represented (h : Filed digest pairs edges) (hfree : FreeOfNul pairs)
    (hcollision : CollisionFree digest pairs) {p : String × String} (hp : p ∈ pairs)
    (hmem : knowledgeRelationshipId digest p.1 p.2 ∈ edges.map GraphEdge.id) :
    ∃ e ∈ edges, SamePair (e.source, e.target) p := by
  obtain ⟨e, he, hid⟩ := List.mem_map.mp hmem
  rw [h.named e he] at hid
  exact ⟨e, he, samePair_of_knowledgeRelationshipId hfree hcollision (h.ends e he) hp hid⟩

end Filed

/-! ### Well-formed graphs -/

/-- **What the renderer relies on**: ids distinct, ends of edges among the
nodes, one edge at most between two nodes. -/
structure WellFormed (g : KnowledgeGraph) : Prop where
  nodes : g.nodeIds.Nodup
  edges : g.edgeIds.Nodup
  ends : ∀ e ∈ g.edges, e.source ∈ g.nodeIds ∧ e.target ∈ g.nodeIds
  pairs : g.edges.Pairwise (fun e e' => ¬ SamePair (e.source, e.target) (e'.source, e'.target))

/-! ### The loops of the normalisation -/

/-- The labels filed for these nodes, with the nodes kept for the labels. -/
structure Labelled (nodes : List GraphNode) (acc : List (String × String) × List GraphNode) :
    Prop where
  nodup : (acc.2.map GraphNode.id).Nodup
  kept : ∀ entry ∈ acc.1, entry.2 ∈ acc.2.map GraphNode.id
  origin : ∀ entry ∈ acc.1, ∃ node ∈ nodes, node.id = entry.1 ∧ nodeLabel node = entry.2
  filed : ∀ node ∈ nodes, node.id ∈ acc.1.map Prod.fst

theorem Labelled.nil : Labelled [] ([], []) := ⟨List.nodup_nil, by simp, by simp, by simp⟩

/-- One round of the loop over the nodes. -/
theorem Labelled.normalizeNode {nodes : List GraphNode}
    {acc : List (String × String) × List GraphNode} (h : Labelled nodes acc) (node : GraphNode) :
    Labelled (nodes ++ [node]) (normalizeNode acc node) where
  nodup := FirstWrite.nodup_addNew h.nodup _
  kept := by
    intro entry hentry
    refine FirstWrite.mem_keys_addNew.mpr ?_
    rcases LastWrite.mem_write hentry with rfl | hmem
    · exact .inr rfl
    · exact .inl (h.kept entry hmem)
  origin := by
    intro entry hentry
    rcases LastWrite.mem_write hentry with rfl | hmem
    · exact ⟨node, by simp, rfl, rfl⟩
    · obtain ⟨first, hfirst, heq⟩ := h.origin entry hmem
      exact ⟨first, List.mem_append_left _ hfirst, heq⟩
  filed := by
    intro other hother
    show other.id ∈ (LastWrite.write node.id (nodeLabel node) acc.1).map Prod.fst
    rw [LastWrite.keys_write]
    rcases List.mem_append.mp hother with hmem | hlast
    · have hfiled := h.filed other hmem
      split
      · exact hfiled
      · exact List.mem_append_left _ hfiled
    · obtain rfl := List.mem_singleton.mp hlast
      split
      · assumption
      · simp

/-- The whole loop over the nodes. -/
theorem labelled_foldl (rest : List GraphNode) :
    ∀ {nodes : List GraphNode} {acc : List (String × String) × List GraphNode},
      Labelled nodes acc → Labelled (nodes ++ rest) (rest.foldl normalizeNode acc) := by
  induction rest with
  | nil =>
      intro nodes acc h
      rw [List.append_nil]
      exact h
  | cons node rest ih =>
      intro nodes acc h
      have hrest := ih (h.normalizeNode node)
      rw [List.append_assoc] at hrest
      exact hrest

/-- The labels of the two ends of an edge, when both ends are filed. -/
def labelledEnds (nodeIds : List (String × String)) (edge : GraphEdge) :
    Option (String × String) :=
  match LastWrite.lookup nodeIds edge.source, LastWrite.lookup nodeIds edge.target with
  | some source, some target => some (source, target)
  | _, _ => none

theorem labelledEnds_eq_some {nodeIds : List (String × String)} {edge : GraphEdge}
    {p : String × String} : labelledEnds nodeIds edge = some p ↔
      LastWrite.lookup nodeIds edge.source = some p.1 ∧
        LastWrite.lookup nodeIds edge.target = some p.2 := by
  unfold labelledEnds
  cases LastWrite.lookup nodeIds edge.source <;> cases LastWrite.lookup nodeIds edge.target <;>
    simp [Prod.ext_iff]

theorem normalizeEdge_none {digest : String → String} {nodeIds : List (String × String)}
    {edges : List GraphEdge} {edge : GraphEdge} (h : labelledEnds nodeIds edge = none) :
    normalizeEdge digest nodeIds edges edge = edges := by
  unfold labelledEnds at h
  unfold normalizeEdge
  split at h
  · simp at h
  · rfl

theorem normalizeEdge_some {digest : String → String} {nodeIds : List (String × String)}
    {edges : List GraphEdge} {edge : GraphEdge} {p : String × String}
    (h : labelledEnds nodeIds edge = some p) :
    normalizeEdge digest nodeIds edges edge =
      FirstWrite.addNew GraphEdge.id edges
        { id := knowledgeRelationshipId digest p.1 p.2, type := edge.type, source := p.1,
          target := p.2, properties := edge.properties } := by
  obtain ⟨hsource, htarget⟩ := labelledEnds_eq_some.mp h
  unfold normalizeEdge
  rw [hsource, htarget]

/-- One round of the loop over the edges. -/
theorem Filed.normalizeEdge {digest : String → String} {pairs nodeIds : List (String × String)}
    {edges : List GraphEdge} (h : Filed digest pairs edges) {edge : GraphEdge}
    (hpairs : ∀ p, labelledEnds nodeIds edge = some p → p ∈ pairs) :
    Filed digest pairs (normalizeEdge digest nodeIds edges edge) := by
  cases hends : labelledEnds nodeIds edge with
  | none =>
      rw [normalizeEdge_none hends]
      exact h
  | some p =>
      rw [normalizeEdge_some hends]
      exact h.addNew (hpairs p hends) rfl

/-- The whole loop over the edges files the id of every edge with two labelled
ends. -/
theorem filed_foldl {digest : String → String} {pairs : List (String × String)}
    (nodeIds : List (String × String)) (rest : List GraphEdge) :
    ∀ {edges : List GraphEdge}, Filed digest pairs edges →
      (∀ edge ∈ rest, ∀ p, labelledEnds nodeIds edge = some p → p ∈ pairs) →
      Filed digest pairs (rest.foldl (normalizeEdge digest nodeIds) edges) ∧
        (∀ k ∈ edges.map GraphEdge.id,
          k ∈ (rest.foldl (normalizeEdge digest nodeIds) edges).map GraphEdge.id) ∧
        ∀ edge ∈ rest, ∀ p, labelledEnds nodeIds edge = some p →
          knowledgeRelationshipId digest p.1 p.2 ∈
            (rest.foldl (normalizeEdge digest nodeIds) edges).map GraphEdge.id := by
  induction rest with
  | nil => exact fun h _ => ⟨h, fun _ hk => hk, by simp⟩
  | cons edge rest ih =>
      intro edges h hpairs
      have hone := h.normalizeEdge (hpairs edge List.mem_cons_self)
      obtain ⟨hfiled, hkeys, hids⟩ :=
        ih hone (fun other hother => hpairs other (List.mem_cons_of_mem _ hother))
      refine ⟨hfiled, ?_, ?_⟩
      · intro k hk
        refine hkeys k ?_
        cases hends : labelledEnds nodeIds edge with
        | none => rwa [normalizeEdge_none hends]
        | some p =>
            rw [normalizeEdge_some hends]
            exact FirstWrite.mem_keys_addNew.mpr (.inl hk)
      · intro other hother p hp
        rcases List.mem_cons.mp hother with rfl | hmem
        · refine hkeys _ ?_
          rw [normalizeEdge_some hp]
          exact FirstWrite.mem_keys_addNew.mpr (.inr rfl)
        · exact hids other hmem p hp

/-- The pairs of labels a LightRAG graph connects. -/
def connectedPairs (graph : KnowledgeGraph) : List (String × String) :=
  graph.edges.filterMap (labelledEnds (graph.nodes.foldl normalizeNode ([], [])).1)

theorem labelled_nodes (graph : KnowledgeGraph) :
    Labelled graph.nodes (graph.nodes.foldl normalizeNode ([], [])) := by
  have h := labelled_foldl graph.nodes Labelled.nil
  rw [List.nil_append] at h
  exact h

theorem mem_connectedPairs {graph : KnowledgeGraph} {p : String × String} :
    p ∈ connectedPairs graph ↔ ∃ edge ∈ graph.edges,
      labelledEnds (graph.nodes.foldl normalizeNode ([], [])).1 edge = some p :=
  List.mem_filterMap

/-- The ends of a connected pair are nodes of the normalised graph. -/
theorem connectedPairs_nodes {digest : String → String} {graph : KnowledgeGraph}
    {p : String × String} (h : p ∈ connectedPairs graph) :
    p.1 ∈ (normalizeKnowledgeGraph digest graph).nodeIds ∧
      p.2 ∈ (normalizeKnowledgeGraph digest graph).nodeIds := by
  obtain ⟨edge, -, hedge⟩ := mem_connectedPairs.mp h
  obtain ⟨hsource, htarget⟩ := labelledEnds_eq_some.mp hedge
  exact ⟨(labelled_nodes graph).kept (edge.source, p.1) (LastWrite.mem_of_lookup hsource),
    (labelled_nodes graph).kept (edge.target, p.2) (LastWrite.mem_of_lookup htarget)⟩

theorem filed_normalize (digest : String → String) (graph : KnowledgeGraph) :
    Filed digest (connectedPairs graph) (normalizeKnowledgeGraph digest graph).edges ∧
      ∀ edge ∈ graph.edges, ∀ p,
        labelledEnds (graph.nodes.foldl normalizeNode ([], [])).1 edge = some p →
          knowledgeRelationshipId digest p.1 p.2 ∈
            (normalizeKnowledgeGraph digest graph).edgeIds := by
  have h := filed_foldl (graph.nodes.foldl normalizeNode ([], [])).1 graph.edges
    (Filed.nil digest (connectedPairs graph))
    (fun edge hedge p hp => mem_connectedPairs.mpr ⟨edge, hedge, hp⟩)
  exact ⟨h.1, h.2.2⟩

/-- A normalised graph is well-formed. -/
theorem wellFormed_normalize (digest : String → String) (graph : KnowledgeGraph) :
    WellFormed (normalizeKnowledgeGraph digest graph) where
  nodes := (labelled_nodes graph).nodup
  edges := (filed_normalize digest graph).1.nodup
  ends := fun e he => connectedPairs_nodes ((filed_normalize digest graph).1.ends e he)
  pairs := (filed_normalize digest graph).1.onePerPair

/-- An edge between input nodes has labelled ends: labels of nodes with the
ids it names. -/
theorem labelledEnds_of_nodes {graph : KnowledgeGraph} {edge : GraphEdge}
    (hsource : edge.source ∈ graph.nodeIds) (htarget : edge.target ∈ graph.nodeIds) :
    ∃ a ∈ graph.nodes, ∃ b ∈ graph.nodes, a.id = edge.source ∧ b.id = edge.target ∧
      labelledEnds (graph.nodes.foldl normalizeNode ([], [])).1 edge =
        some (nodeLabel a, nodeLabel b) := by
  have hlabelled := labelled_nodes graph
  have hlabel : ∀ id ∈ graph.nodeIds, ∃ node ∈ graph.nodes, node.id = id ∧
      LastWrite.lookup (graph.nodes.foldl normalizeNode ([], [])).1 id =
        some (nodeLabel node) := by
    intro id hid
    obtain ⟨node, hnode, rfl⟩ := List.mem_map.mp hid
    obtain ⟨label, hlookup⟩ := LastWrite.mem_keys_iff.mp (hlabelled.filed node hnode)
    obtain ⟨owner, howner, hid, rfl⟩ := hlabelled.origin _ (LastWrite.mem_of_lookup hlookup)
    exact ⟨owner, howner, hid, hlookup⟩
  obtain ⟨a, ha, hida, hlooka⟩ := hlabel _ hsource
  obtain ⟨b, hb, hidb, hlookb⟩ := hlabel _ htarget
  exact ⟨a, ha, b, hb, hida, hidb, labelledEnds_eq_some.mpr ⟨hlooka, hlookb⟩⟩

/-! ### Names -/

variable {digest : String → String} {render : Value → String} {maxNodes : Nat}

/-- A name that was read once reads the same when it is read again. -/
theorem nameText_nameText (render : Value → String) (value : Value) :
    nameText render (.str (nameText render value)) = nameText render value := by
  have htext (s : String) : textOf render ((Value.str s).or (.str "")) = s := by
    by_cases h : s = "" <;> simp [Value.or, Value.truthy, textOf, h]
  unfold nameText
  rw [htext, strip_strip]

/-! ### The loops of the search -/

/-- The label of an entity, when it has a name. -/
def namedEntity (render : Value → String) : Value → Option String
  | .dict entity =>
      let label := nameText render (Dict.get entity "entity_name")
      if label = "" then none else some label
  | _ => none

/-- The labels of the ends of a relationship, when both have a name. -/
def namedEnds (render : Value → String) : Value → Option (String × String)
  | .dict relationship =>
      let source := nameText render (Dict.get relationship "src_id")
      let target := nameText render (Dict.get relationship "tgt_id")
      if source = "" ∨ target = "" then none else some (source, target)
  | _ => none

/-- Nothing is taken back: ids stay, and so does the mark of the cap. -/
structure Grows (g g' : KnowledgeGraph) : Prop where
  nodeIds : ∀ label ∈ g.nodeIds, label ∈ g'.nodeIds
  edgeIds : ∀ id ∈ g.edgeIds, id ∈ g'.edgeIds
  isTruncated : g.isTruncated = true → g'.isTruncated = true

theorem Grows.refl (g : KnowledgeGraph) : Grows g g := ⟨fun _ h => h, fun _ h => h, id⟩

theorem Grows.trans {g g' g'' : KnowledgeGraph} (h : Grows g g') (h' : Grows g' g'') :
    Grows g g'' :=
  ⟨fun label hl => h'.nodeIds label (h.nodeIds label hl),
    fun id hi => h'.edgeIds id (h.edgeIds id hi),
    fun ht => h'.isTruncated (h.isTruncated ht)⟩

/-- **The invariant of the search**: the cap, distinct labels that are not
empty, and edges filed between nodes. -/
structure Built (digest : String → String) (maxNodes : Nat) (pairs : List (String × String))
    (g : KnowledgeGraph) : Prop where
  cap : g.nodes.length ≤ maxNodes
  nodup : g.nodeIds.Nodup
  named : "" ∉ g.nodeIds
  filed : Filed digest pairs g.edges
  ends : ∀ e ∈ g.edges, e.source ∈ g.nodeIds ∧ e.target ∈ g.nodeIds

theorem Built.empty (digest : String → String) (maxNodes : Nat)
    (pairs : List (String × String)) : Built digest maxNodes pairs {} :=
  ⟨Nat.zero_le _, List.nodup_nil, List.not_mem_nil, Filed.nil digest pairs, by simp⟩

/-- **What `add_node` does**: nothing for an empty label or a node that is
there, a mark when the cap is reached, a new node otherwise. -/
theorem addNode_cases (render : Value → String) (maxNodes : Nat) (g : KnowledgeGraph) (entityName : Value) (properties : Dict) :
    (nameText render entityName = "" ∧
      addNode render maxNodes g entityName properties = (false, g)) ∨
    (nameText render entityName ∈ g.nodeIds ∧
      addNode render maxNodes g entityName properties = (true, g)) ∨
    addNode render maxNodes g entityName properties = (false, { g with isTruncated := true }) ∨
    (nameText render entityName ≠ "" ∧ nameText render entityName ∉ g.nodeIds ∧
      g.nodes.length < maxNodes ∧
      addNode render maxNodes g entityName properties =
        (true, { g with nodes := g.nodes ++ [{
          id := nameText render entityName
          labels := [nameText render entityName]
          properties := properties }] })) := by
  by_cases hempty : nameText render entityName = ""
  · exact .inl ⟨hempty, if_pos hempty⟩
  · by_cases hmem : nameText render entityName ∈ g.nodeIds
    · refine .inr (.inl ⟨hmem, ?_⟩)
      simp only [addNode, if_neg hempty, if_pos hmem]
    · by_cases hcap : maxNodes ≤ g.nodes.length
      · refine .inr (.inr (.inl ?_))
        simp only [addNode, if_neg hempty, if_neg hmem, if_pos hcap]
      · refine .inr (.inr (.inr ⟨hempty, hmem, Nat.lt_of_not_le hcap, ?_⟩))
        simp only [addNode, if_neg hempty, if_neg hmem, if_neg hcap]

/-- The ids after one more node. -/
theorem nodeIds_append (g : KnowledgeGraph) (node : GraphNode) :
    ({ g with nodes := g.nodes ++ [node] } : KnowledgeGraph).nodeIds = g.nodeIds ++ [node.id] :=
  List.map_append

/-- `add_node` keeps the invariant. -/
theorem Built.addNode {pairs : List (String × String)} {g : KnowledgeGraph}
    (h : Built digest maxNodes pairs g) (render : Value → String) (entityName : Value)
    (properties : Dict) :
    Built digest maxNodes pairs (addNode render maxNodes g entityName properties).2 := by
  rcases addNode_cases render maxNodes g entityName properties with
    ⟨-, heq⟩ | ⟨-, heq⟩ | heq | ⟨hne, hnew, hcap, heq⟩
  · rw [heq]
    exact h
  · rw [heq]
    exact h
  · rw [heq]
    exact ⟨h.cap, h.nodup, h.named, h.filed, h.ends⟩
  · rw [heq]
    refine ⟨?_, ?_, ?_, h.filed, ?_⟩
    · rw [List.length_append, List.length_singleton]
      omega
    · rw [nodeIds_append]
      refine h.nodup.append (List.nodup_singleton _) ?_
      intro label hlabel hlast
      rw [List.mem_singleton] at hlast
      rw [hlast] at hlabel
      exact hnew hlabel
    · rw [nodeIds_append, List.mem_append, List.mem_singleton]
      rintro (hmem | heq')
      · exact h.named hmem
      · exact hne heq'.symm
    · intro e he
      obtain ⟨hsource, htarget⟩ := h.ends e he
      rw [nodeIds_append]
      exact ⟨List.mem_append_left _ hsource, List.mem_append_left _ htarget⟩

/-- `add_node` takes nothing back. -/
theorem grows_addNode (render : Value → String) (maxNodes : Nat) (g : KnowledgeGraph) (entityName : Value) (properties : Dict) :
    Grows g (addNode render maxNodes g entityName properties).2 := by
  rcases addNode_cases render maxNodes g entityName properties with
    ⟨-, heq⟩ | ⟨-, heq⟩ | heq | ⟨-, -, -, heq⟩
  · rw [heq]
    exact .refl g
  · rw [heq]
    exact .refl g
  · rw [heq]
    exact ⟨fun _ h => h, fun _ h => h, fun _ => rfl⟩
  · rw [heq]
    refine ⟨fun label h => ?_, fun _ h => h, id⟩
    rw [nodeIds_append]
    exact List.mem_append_left _ h

/-- What `add_node` answers: the label is a node, or it was empty or capped. -/
theorem addNode_answer (render : Value → String) (maxNodes : Nat) (g : KnowledgeGraph) (entityName : Value) (properties : Dict) :
    ((addNode render maxNodes g entityName properties).1 = true →
      nameText render entityName ∈
        (addNode render maxNodes g entityName properties).2.nodeIds) ∧
    ((addNode render maxNodes g entityName properties).1 = false →
      nameText render entityName ≠ "" →
      (addNode render maxNodes g entityName properties).2.isTruncated = true) := by
  rcases addNode_cases render maxNodes g entityName properties with
    ⟨hempty, heq⟩ | ⟨hmem, heq⟩ | heq | ⟨-, -, -, heq⟩
  · rw [heq]
    exact ⟨by simp, fun _ hne => absurd hempty hne⟩
  · rw [heq]
    exact ⟨fun _ => hmem, by simp⟩
  · rw [heq]
    exact ⟨by simp, fun _ _ => rfl⟩
  · rw [heq]
    refine ⟨fun _ => ?_, by simp⟩
    rw [nodeIds_append]
    exact List.mem_append_right _ List.mem_cons_self

/-- **One entity**: a named one becomes a node, or the graph is marked. -/
theorem addEntity_step {pairs : List (String × String)} {g : KnowledgeGraph}
    (render : Value → String) (h : Built digest maxNodes pairs g) (entity : Value) :
    Built digest maxNodes pairs (addEntity render maxNodes g entity) ∧
      Grows g (addEntity render maxNodes g entity) ∧
      ∀ label, namedEntity render entity = some label →
        label ∈ (addEntity render maxNodes g entity).nodeIds ∨
          (addEntity render maxNodes g entity).isTruncated = true := by
  cases entity with
  | dict entity =>
      refine ⟨h.addNode render _ _, grows_addNode render maxNodes _ _ _, ?_⟩
      intro label hlabel
      simp only [namedEntity] at hlabel
      split at hlabel
      · simp at hlabel
      · rename_i hne
        obtain rfl := Option.some.inj hlabel
        have hanswer := addNode_answer render maxNodes g
          (Dict.get entity "entity_name") (entity.filter (fun entry => entry.1 != "entity_name"))
        show _ ∈ (addNode render maxNodes g _ _).2.nodeIds ∨ _
        cases hok : (addNode render maxNodes g (Dict.get entity "entity_name")
            (entity.filter (fun entry => entry.1 != "entity_name"))).1 with
        | true => exact .inl (hanswer.1 hok)
        | false => exact .inr (hanswer.2 hok hne)
  | _ => exact ⟨h, .refl g, by simp [namedEntity]⟩

/-- A relationship without two named ends adds nothing. -/
theorem addRelationship_none (digest : String → String) (maxNodes : Nat) (g : KnowledgeGraph)
    {relationship : Value}
    (h : namedEnds render relationship = none) :
    addRelationship digest render maxNodes g relationship = g := by
  cases relationship with
  | dict entries =>
      simp only [namedEnds] at h
      split at h
      · rename_i hempty
        simp only [addRelationship, if_pos hempty]
      · simp at h
  | _ => rfl

/-- A relationship with two named ends: both become nodes and the edge is
filed under their id, or the graph is marked and keeps its edges. -/
theorem addRelationship_some {pairs : List (String × String)} {g : KnowledgeGraph}
    (h : Built digest maxNodes pairs g) {relationship : Value} {p : String × String}
    (hends : namedEnds render relationship = some p) (hp : p ∈ pairs) :
    Built digest maxNodes pairs (addRelationship digest render maxNodes g relationship) ∧
      Grows g (addRelationship digest render maxNodes g relationship) ∧
      (knowledgeRelationshipId digest p.1 p.2 ∈
          (addRelationship digest render maxNodes g relationship).edgeIds ∨
        (addRelationship digest render maxNodes g relationship).isTruncated = true) := by
  cases relationship with
  | dict entries =>
      simp only [namedEnds] at hends
      split at hends
      · simp at hends
      rename_i hnamed
      obtain rfl := Option.some.inj hends
      rw [not_or] at hnamed
      -- The names were read before, and read the same again.
      have hsource := nameText_nameText render (Dict.get entries "src_id")
      have htarget := nameText_nameText render (Dict.get entries "tgt_id")
      simp only [addRelationship, if_neg (not_or.mpr hnamed)]
      generalize nameText render (Dict.get entries "src_id") = source at *
      generalize nameText render (Dict.get entries "tgt_id") = target at *
      have hbuilt₁ := h.addNode render (.str source) []
      have hgrows₁ := grows_addNode render maxNodes g (.str source) []
      have hanswer₁ := addNode_answer render maxNodes g (.str source) []
      generalize addNode render maxNodes g (.str source) [] = first at *
      rw [hsource] at hanswer₁
      split
      · rename_i hno
        exact ⟨hbuilt₁, hgrows₁, .inr (hanswer₁.2 hno hnamed.1)⟩
      rename_i hyes
      rw [Bool.not_eq_false] at hyes
      have hbuilt₂ := hbuilt₁.addNode render (.str target) []
      have hgrows₂ :=
        grows_addNode render maxNodes first.2 (.str target) []
      have hanswer₂ :=
        addNode_answer render maxNodes first.2 (.str target) []
      generalize addNode render maxNodes first.2 (.str target) [] = second at *
      rw [htarget] at hanswer₂
      split
      · rename_i hno
        exact ⟨hbuilt₂, hgrows₁.trans hgrows₂, .inr (hanswer₂.2 hno hnamed.2)⟩
      rename_i hyes'
      rw [Bool.not_eq_false] at hyes'
      refine ⟨⟨hbuilt₂.cap, hbuilt₂.nodup, hbuilt₂.named, hbuilt₂.filed.addNew hp rfl, ?_⟩,
        (hgrows₁.trans hgrows₂).trans ⟨fun _ hl => hl, ?_, id⟩, .inl ?_⟩
      · intro e he
        rcases FirstWrite.mem_of_mem_addNew he with hmem | rfl
        · exact hbuilt₂.ends e hmem
        · exact ⟨hgrows₂.nodeIds _ (hanswer₁.1 hyes), hanswer₂.1 hyes'⟩
      · exact fun _ hid => FirstWrite.mem_keys_addNew.mpr (.inl hid)
      · exact FirstWrite.mem_keys_addNew.mpr (.inr rfl)
  | _ => simp [namedEnds] at hends

/-- The loop over the entities. -/
theorem addEntity_run {pairs : List (String × String)} (render : Value → String)
    (entities : List Value) :
    ∀ {g : KnowledgeGraph}, Built digest maxNodes pairs g →
      Built digest maxNodes pairs (entities.foldl (addEntity render maxNodes) g) ∧
        Grows g (entities.foldl (addEntity render maxNodes) g) ∧
        ∀ entity ∈ entities, ∀ label, namedEntity render entity = some label →
          label ∈ (entities.foldl (addEntity render maxNodes) g).nodeIds ∨
            (entities.foldl (addEntity render maxNodes) g).isTruncated = true := by
  induction entities with
  | nil => exact fun h => ⟨h, .refl _, by simp⟩
  | cons entity entities ih =>
      intro g h
      obtain ⟨hone, hgrows, hlabel⟩ := addEntity_step render h entity
      obtain ⟨hall, hgrows', hlabels⟩ := ih hone
      refine ⟨hall, hgrows.trans hgrows', ?_⟩
      intro other hother label hnamed
      rcases List.mem_cons.mp hother with rfl | hmem
      · exact (hlabel label hnamed).imp (hgrows'.nodeIds label) hgrows'.isTruncated
      · exact hlabels other hmem label hnamed

/-- The loop over the relationships. -/
theorem addRelationship_run {pairs : List (String × String)} (relationships : List Value) :
    ∀ {g : KnowledgeGraph}, Built digest maxNodes pairs g →
      (∀ r ∈ relationships, ∀ p, namedEnds render r = some p → p ∈ pairs) →
      Built digest maxNodes pairs
          (relationships.foldl (addRelationship digest render maxNodes) g) ∧
        Grows g (relationships.foldl (addRelationship digest render maxNodes) g) ∧
        ∀ r ∈ relationships, ∀ p, namedEnds render r = some p →
          knowledgeRelationshipId digest p.1 p.2 ∈
              (relationships.foldl (addRelationship digest render maxNodes) g).edgeIds ∨
            (relationships.foldl (addRelationship digest render maxNodes) g).isTruncated =
              true := by
  induction relationships with
  | nil => exact fun h _ => ⟨h, .refl _, by simp⟩
  | cons r relationships ih =>
      intro g h hpairs
      have hrest := fun other hother => hpairs other (List.mem_cons_of_mem r hother)
      cases hends : namedEnds render r with
      | none =>
          have hsame := addRelationship_none digest maxNodes g hends
          obtain ⟨hall, hgrows, hids⟩ := ih h hrest
          rw [List.foldl_cons, hsame]
          refine ⟨hall, hgrows, ?_⟩
          intro other hother p hp
          rcases List.mem_cons.mp hother with rfl | hmem
          · rw [hends] at hp
            simp at hp
          · exact hids other hmem p hp
      | some p =>
          obtain ⟨hone, hgrows, hid⟩ :=
            addRelationship_some h hends (hpairs r List.mem_cons_self p hends)
          obtain ⟨hall, hgrows', hids⟩ := ih hone hrest
          refine ⟨hall, hgrows.trans hgrows', ?_⟩
          intro other hother q hq
          rcases List.mem_cons.mp hother with rfl | hmem
          · obtain rfl := Option.some.inj (hends.symm.trans hq)
            exact hid.imp (hgrows'.edgeIds _) hgrows'.isTruncated
          · exact hids other hmem q hq

/-- The reported totals change nothing but the mark, and never clear it. -/
theorem markTotals_spec {pairs : List (String × String)} {g : KnowledgeGraph}
    (h : Built digest maxNodes pairs g) (info : Value) :
    Built digest maxNodes pairs (markTotals info g) ∧ Grows g (markTotals info g) := by
  cases info with
  | dict entries =>
      refine ⟨⟨h.cap, h.nodup, h.named, h.filed, h.ends⟩, fun _ hl => hl, fun _ hi => hi, ?_⟩
      intro htruncated
      simp only [markTotals, htruncated, Bool.true_or]
  | _ => exact ⟨h, .refl g⟩

/-- The pairs of labels the relationships of a result name. -/
def relatedPairs (render : Value → String) (result : Dict) : List (String × String) :=
  (relationshipsOf result).filterMap (namedEnds render)

theorem mem_relatedPairs {result : Dict} {p : String × String} :
    p ∈ relatedPairs render result ↔ ∃ r ∈ relationshipsOf result, namedEnds render r = some p :=
  List.mem_filterMap

/-- **The graph of a search**: the invariant, and what was left out is marked. -/
theorem knowledgeGraphFromSearchResult_spec (digest : String → String)
    (render : Value → String) (result : Dict) (maxNodes : Nat) :
    let g := knowledgeGraphFromSearchResult digest render result maxNodes
    Built digest maxNodes (relatedPairs render result) g ∧
      (∀ entity ∈ entitiesOf result, ∀ label, namedEntity render entity = some label →
        label ∈ g.nodeIds ∨ g.isTruncated = true) ∧
      ∀ p ∈ relatedPairs render result,
        knowledgeRelationshipId digest p.1 p.2 ∈ g.edgeIds ∨ g.isTruncated = true := by
  intro g
  cases hdata : Dict.get result "data" with
  | dict data =>
      have hg : g = markTotals (processingInfo result)
          ((relationshipsOf result).foldl (addRelationship digest render maxNodes)
            ((entitiesOf result).foldl (addEntity render maxNodes) {})) := by
        simp only [g, knowledgeGraphFromSearchResult, hdata]
      have hempty := Built.empty digest maxNodes (relatedPairs render result)
      obtain ⟨hentities, -, hlabels⟩ := addEntity_run render (entitiesOf result) hempty
      obtain ⟨hbuilt, hgrows, hids⟩ := addRelationship_run (relationshipsOf result) hentities
        (fun r hr p hp => mem_relatedPairs.mpr ⟨r, hr, hp⟩)
      obtain ⟨hmarked, hmarks⟩ := markTotals_spec hbuilt (processingInfo result)
      rw [hg]
      have hall := hgrows.trans hmarks
      refine ⟨hmarked, ?_, ?_⟩
      · intro entity hentity label hnamed
        exact (hlabels entity hentity label hnamed).imp (hall.nodeIds label) hall.isTruncated
      · intro p hp
        obtain ⟨r, hr, hends⟩ := mem_relatedPairs.mp hp
        exact (hids r hr p hends).imp (hmarks.edgeIds _) hmarks.isTruncated
  | _ =>
      have hg : g = {} := by simp only [g, knowledgeGraphFromSearchResult, hdata]
      have hentities : entitiesOf result = [] := by simp only [entitiesOf, hdata]
      have hpairs : relatedPairs render result = [] := by
        simp only [relatedPairs, relationshipsOf, hdata, List.filterMap_nil]
      rw [hg, hentities, hpairs]
      exact ⟨Built.empty digest maxNodes [], by simp, by simp⟩

/-- **Both graphs are well-formed.**  A search graph keeps the cap, has no
empty id and is marked when a named entity or a relationship between names is
missing; a normalised graph has an edge for every edge between input nodes.
That an edge is there for a pair supposes labels free of NUL and a digest that
takes the pairs apart. -/
theorem knowledgeGraphs_wellFormed (digest : String → String) (render : Value → String) :
    (∀ (result : Dict) (maxNodes : Nat),
      let g := knowledgeGraphFromSearchResult digest render result maxNodes
      WellFormed g ∧ g.nodes.length ≤ maxNodes ∧ "" ∉ g.nodeIds ∧
        (∀ entity ∈ entitiesOf result, ∀ label, namedEntity render entity = some label →
          label ∈ g.nodeIds ∨ g.isTruncated = true) ∧
        (FreeOfNul (relatedPairs render result) →
          CollisionFree digest (relatedPairs render result) →
          ∀ r ∈ relationshipsOf result, ∀ p, namedEnds render r = some p →
            (∃ e ∈ g.edges, SamePair (e.source, e.target) p) ∨ g.isTruncated = true)) ∧
    (∀ graph : KnowledgeGraph,
      let g := normalizeKnowledgeGraph digest graph
      WellFormed g ∧
        (FreeOfNul (connectedPairs graph) → CollisionFree digest (connectedPairs graph) →
          ∀ edge ∈ graph.edges, edge.source ∈ graph.nodeIds → edge.target ∈ graph.nodeIds →
            ∃ a ∈ graph.nodes, ∃ b ∈ graph.nodes,
              a.id = edge.source ∧ b.id = edge.target ∧
                ∃ e ∈ g.edges, SamePair (e.source, e.target) (nodeLabel a, nodeLabel b))) := by
  refine ⟨fun result maxNodes => ?_, fun graph => ?_⟩
  · obtain ⟨hbuilt, hlabels, hids⟩ :=
      knowledgeGraphFromSearchResult_spec digest render result maxNodes
    refine ⟨⟨hbuilt.nodup, hbuilt.filed.nodup, hbuilt.ends, hbuilt.filed.onePerPair⟩,
      hbuilt.cap, hbuilt.named, hlabels, ?_⟩
    intro hfree hcollision r hr p hp
    have hmem : p ∈ relatedPairs render result := mem_relatedPairs.mpr ⟨r, hr, hp⟩
    exact (hids p hmem).imp (hbuilt.filed.represented hfree hcollision hmem) id
  · refine ⟨wellFormed_normalize digest graph, ?_⟩
    intro hfree hcollision edge hedge hsource htarget
    obtain ⟨a, ha, b, hb, hida, hidb, hends⟩ := labelledEnds_of_nodes hsource htarget
    obtain ⟨hfiled, hids⟩ := filed_normalize digest graph
    exact ⟨a, ha, b, hb, hida, hidb, hfiled.represented hfree hcollision
      (mem_connectedPairs.mpr ⟨edge, hedge, hends⟩) (hids edge hedge _ hends)⟩

/-- The digest of the one pair below. -/
def alphaBetaDigest (text : String) : String :=
  if text = "alpha\x00beta" then
    "4163834372780d81f2af66f279e9f9561be95535729c56c283fe298aee15582e"
  else text

/-- A search that finds one entity, and a relationship to another. -/
def foundPair : Dict :=
  [("data", .dict
    [("entities", .list [.dict [("entity_name", .str "alpha")]]),
      ("relationships", .list
        [.dict [("src_id", .str "beta"), ("tgt_id", .str " alpha ")]])])]

/-- A LightRAG graph with that relationship. -/
def storedPair : KnowledgeGraph where
  nodes := [⟨"n1", ["alpha"], []⟩, ⟨"n2", [" ", "beta "], []⟩]
  edges := [⟨"e", none, "n2", "n1", []⟩]

/-- Both graphs have an edge between the two labels. -/
theorem knowledgeGraphs_wellFormed_pair :
    (∃ e ∈ (knowledgeGraphFromSearchResult alphaBetaDigest (fun _ => "") foundPair 5).edges,
      SamePair (e.source, e.target) ("beta", "alpha")) ∧
    ∃ e ∈ (normalizeKnowledgeGraph alphaBetaDigest storedPair).edges,
      SamePair (e.source, e.target) ("beta", "alpha") := by
  obtain ⟨hsearch, hnormalize⟩ := knowledgeGraphs_wellFormed alphaBetaDigest (fun _ => "")
  have hfree : FreeOfNul [("beta", "alpha")] := by
    intro p hp
    rw [List.mem_singleton.mp hp]
    decide
  have hcollision : CollisionFree alphaBetaDigest [("beta", "alpha")] := by
    intro p hp q hq _
    rw [List.mem_singleton.mp hp, List.mem_singleton.mp hq]
  constructor
  · have hpairs : relatedPairs (fun _ => "") foundPair = [("beta", "alpha")] := by decide
    have hcomplete := (hsearch foundPair 5).2.2.2.2
    rw [hpairs] at hcomplete
    have hnot :
        (knowledgeGraphFromSearchResult alphaBetaDigest (fun _ => "") foundPair 5).isTruncated =
          false := by decide
    have hmem : ("beta", "alpha") ∈ relatedPairs (fun _ => "") foundPair := by
      rw [hpairs]
      exact List.mem_cons_self
    obtain ⟨r, hr, hends⟩ := mem_relatedPairs.mp hmem
    rcases hcomplete hfree hcollision r hr _ hends with hedge | hcapped
    · exact hedge
    · rw [hnot] at hcapped
      simp at hcapped
  · have hpairs : connectedPairs storedPair = [("beta", "alpha")] := by decide
    have hcomplete := (hnormalize storedPair).2
    rw [hpairs] at hcomplete
    obtain ⟨a, ha, b, hb, hida, hidb, hedge⟩ :=
      hcomplete hfree hcollision ⟨"e", none, "n2", "n1", []⟩ List.mem_cons_self (by decide)
        (by decide)
    have hlabels : (nodeLabel a, nodeLabel b) = ("beta", "alpha") := by
      simp only [storedPair, List.mem_cons, List.not_mem_nil, or_false] at ha hb
      rcases ha with rfl | rfl
      · simp at hida
      · rcases hb with rfl | rfl
        · decide
        · simp at hidb
    rw [hlabels] at hedge
    exact hedge

end Workbench.KnowledgeGraphs
