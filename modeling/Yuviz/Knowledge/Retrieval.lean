import Mathlib
import Yuviz.Knowledge.IngestionWorker
import Yuviz.Python.Json
import Yuviz.TopK

/-!
# Retrieval

`retrieve` and the search of `PgVectorRepository`, on what the database and the embedding
providers answer (`Answers`). What the queries mean is a statement of its own (`Answered`):
the rows come in any order, and a search finds the best of the chunks of its group, which
an approximate index may not.

The documents in prompt mode come first, then the longest prefix that fits of the best
chunks of all groups (`retrieve_selects`). `None` is returned if there are none of either,
and if no chunks are asked for.
-/

namespace Yuviz.Knowledge.Retrieval

open Python (Dict Json words)

/-! ### The tables -/

/-- A row of `knowledge_bases`. -/
structure KnowledgeBase where
  slug : String
  embeddingConfigId : Option ℕ
  active : Bool
  deleted : Bool

/-- A row of `kb_documents`. -/
structure Document where
  title : String
  status : DocumentStatus
  usageMode : UsageMode
  deleted : Bool

/-- A row of `kb_chunks`. -/
structure Chunk (V : Type) where
  id : ℕ
  documentId : ℕ
  kbId : ℕ
  chunkIndex : ℤ
  content : List Char
  embedding : Option V
  tokenCount : Option ℕ
  page : Option ℤ
  language : Option String
  tags : Json
  version : ℤ

/-- A row of `agent_knowledge_bases`. -/
structure AgentKnowledgeBase where
  agentId : ℕ
  kbId : ℕ
  enabled : Bool

/-- The fields of a policy that are not null. -/
structure PolicyFields (S : Type) where
  topK : Option ℤ
  maxTokens : Option ℤ
  minimumScore : Option S
  rerank : Option Bool
  hybridSearch : Option Bool
  includeCitations : Option Bool

/-- The tables. The slugs are those of the tenants and agents that are not deleted. -/
structure Tables (V S : Type) where
  agentId : String → String → Option ℕ
  retrievalPolicies : ℕ → Option (PolicyFields S)
  knowledgeBases : ℕ → Option KnowledgeBase
  documents : ℕ → Option Document
  chunks : List (Chunk V)
  agentKnowledgeBases : List AgentKnowledgeBase
  chunkIds : (chunks.map Chunk.id).Nodup

/-- A chunk, joined with its document and its knowledge base. -/
structure Row (V : Type) where
  chunk : Chunk V
  documentTitle : String
  kbSlug : String

variable {V S : Type}

/-- `c.document_id, c.kb_id`. -/
def Row.key (row : Row V) : ℕ × ℕ := (row.chunk.documentId, row.chunk.kbId)

namespace Tables

variable (tables : Tables V S)

/-- The knowledge bases of an agent that are enabled and active. -/
def enabledKbs (agentId : Option ℕ) : List (ℕ × KnowledgeBase) :=
  tables.agentKnowledgeBases.filterMap fun row =>
    if agentId = some row.agentId ∧ row.enabled then
      ((tables.knowledgeBases row.kbId).filter fun kb => kb.active && !kb.deleted).map (row.kbId, ·)
    else none

/-- `kb_id` and `embedding_config_id` of those that have one. -/
def embedded (agentId : Option ℕ) : List (ℕ × ℕ) :=
  (tables.enabledKbs agentId).filterMap fun kb => kb.2.embeddingConfigId.map (kb.1, ·)

/-- The chunks whose documents are as given. -/
def joined (p : Document → Bool) : List (Row V) :=
  tables.chunks.filterMap fun chunk => do
    let document ← (tables.documents chunk.documentId).filter fun document =>
      !document.deleted && p document
    let kb ← tables.knowledgeBases chunk.kbId
    some ⟨chunk, document.title, kb.slug⟩

/-- Those of some knowledge bases. -/
def rows (kbIds : List ℕ) (p : Document → Bool) : List (Row V) :=
  (tables.joined p).filter (·.chunk.kbId ∈ kbIds)

def inPromptMode (document : Document) : Bool :=
  document.usageMode = .prompt && document.status = .ready

def inAutoMode (document : Document) : Bool := document.usageMode = .auto

/-- What a search is among, with the scores. -/
def searchRows (similarity : V → V → S) (kbIds : List ℕ) (embedding : V) : List (Row V × S) :=
  (tables.rows kbIds inAutoMode).filterMap fun row =>
    row.chunk.embedding.map fun vector => (row, similarity vector embedding)

end Tables

/-! ### The code -/

structure VectorMatch (S : Type) where
  chunkId : ℕ
  documentId : ℕ
  kbId : ℕ
  content : List Char
  score : S
  tokenCount : Option ℕ
  page : Option ℤ
  language : Option String
  tags : Json
  version : ℤ
  documentTitle : String
  kbSlug : String

/-- `m.token_count or _approx_token_count(m.content)`. -/
def VectorMatch.tokens (m : VectorMatch S) : ℕ :=
  if m.tokenCount.getD 0 ≠ 0 then m.tokenCount.getD 0 else (words m.content).length

def tokensOf (ms : List (VectorMatch S)) : ℕ := (ms.map VectorMatch.tokens).sum

def VectorMatch.ofRow (row : Row V × S) : VectorMatch S where
  chunkId := row.1.chunk.id
  documentId := row.1.chunk.documentId
  kbId := row.1.chunk.kbId
  content := row.1.chunk.content
  score := row.2
  tokenCount := row.1.chunk.tokenCount
  page := row.1.chunk.page
  language := row.1.chunk.language
  tags := row.1.chunk.tags
  version := row.1.chunk.version
  documentTitle := row.1.documentTitle
  kbSlug := row.1.kbSlug

/-- The match of a document in prompt mode, of its chunks in order. -/
def promptMatch [One S] : List (Row V) → Option (VectorMatch S)
  | [] => none
  | row :: rows => some
    { VectorMatch.ofRow (row, 1) with
      content := [' '].intercalate ((row :: rows).map (·.chunk.content))
      tokenCount := some ((row :: rows).map fun row => row.chunk.tokenCount.getD 0).sum }

structure Policy (S : Type) where
  topK : ℤ
  maxTokens : ℤ
  minimumScore : S
  rerank : Bool
  hybridSearch : Bool
  includeCitations : Bool

/-- What is awaited is answered so. `none` is an exception: of the fetch of a config, its
    provider or the embedding of the query, or of a search. -/
structure Answers (V S : Type) where
  policyRow : Option (PolicyFields S)
  enabledKbIds : List ℕ
  /-- The rows of each document in prompt mode, by `chunk_index`. -/
  promptGroups : List (List (Row V))
  embedded : List (ℕ × ℕ)
  embed : ℕ → Option V
  nearest : List ℕ → V → ℤ → Option (List (Row V × S))

/-- `_resolve_policy`. -/
def resolvePolicy [Zero S] (overrides : PolicyFields S) (row : Option (PolicyFields S)) :
    Policy S where
  topK := (overrides.topK.or (row.bind (·.topK))).getD 5
  maxTokens := (overrides.maxTokens.or (row.bind (·.maxTokens))).getD 1000
  minimumScore := (overrides.minimumScore.or (row.bind (·.minimumScore))).getD 0
  rerank := (overrides.rerank.or (row.bind (·.rerank))).getD false
  hybridSearch := (overrides.hybridSearch.or (row.bind (·.hybridSearch))).getD false
  includeCitations := (overrides.includeCitations.or (row.bind (·.includeCitations))).getD true

/-- `groups.setdefault(embedding_config_id, []).append(kb_id)`. -/
def addKb (groups : Dict ℕ (List ℕ)) (row : ℕ × ℕ) : Dict ℕ (List ℕ) :=
  groups.set row.2 ((groups.get? row.2).getD [] ++ [row.1])

/-- `_agent_kb_groups`. -/
def agentKbGroups (rows : List (ℕ × ℕ)) : Dict ℕ (List ℕ) := rows.foldl addKb []

/-- `xs[:k]`. -/
def sliceTo {α : Type} (k : ℤ) (xs : List α) : List α :=
  if 0 ≤ k then xs.take k.toNat else xs.take (xs.length - k.natAbs)

structure Source where
  kbId : ℕ
  kbSlug : String
  documentId : ℕ
  documentTitle : String
  chunkId : ℕ
  page : Option ℤ
  language : Option String
  tags : Json
  version : ℤ

structure RetrievedChunk (S : Type) where
  content : List Char
  score : S
  source : Source

structure Metadata where
  topK : ℤ
  candidates : ℕ
  groups : ℕ
  rerank : Bool
  hybridSearch : Bool
  alwaysIncluded : ℕ

structure Retrieved (S : Type) where
  chunks : List (RetrievedChunk S)
  sources : List String
  tokenCount : ℕ
  includeCitations : Bool
  retrievalMetadata : Metadata

def VectorMatch.retrieved (m : VectorMatch S) : RetrievedChunk S where
  content := m.content
  score := m.score
  source := ⟨m.kbId, m.kbSlug, m.documentId, m.documentTitle, m.chunkId, m.page, m.language,
    m.tags, m.version⟩

def Retrieved.of (policy : Policy S) (selected : List (VectorMatch S))
    (candidates groups alwaysIncluded : ℕ) : Retrieved S where
  chunks := selected.map VectorMatch.retrieved
  sources := (Dict.ofPairs (selected.map fun m => (m.documentTitle, ()))).map Prod.fst
  tokenCount := tokensOf selected
  includeCitations := policy.includeCitations
  retrievalMetadata :=
    ⟨policy.topK, candidates, groups, policy.rerank, policy.hybridSearch, alwaysIncluded⟩

/-- The matches that are taken while they fit in the budget, or nothing is selected. -/
def fill (selected : List (VectorMatch S)) (budget : ℤ) :
    List (VectorMatch S) → List (VectorMatch S)
  | [] => selected
  | m :: rest =>
    if selected ≠ [] ∧ budget - m.tokens < 0 then selected
    else fill (selected ++ [m]) (budget - m.tokens) rest

section

variable [LinearOrder S] (answers : Answers V S)

/-- `PgVectorRepository.search`. -/
def Answers.search (kbIds : List ℕ) (embedding : V) (topK : ℤ) (minimumScore : S) :
    Option (List (VectorMatch S)) :=
  if kbIds = [] then some []
  else (answers.nearest kbIds embedding topK).map fun rows =>
    (rows.map VectorMatch.ofRow).filter fun m => minimumScore ≤ m.score

/-- `retrieve`, once all groups are searched. -/
def select (policy : Policy S) (promptMatches allMatches : List (VectorMatch S)) (groups : ℕ) :
    Option (Retrieved S) :=
  if promptMatches = [] ∧ allMatches = [] then none
  else
    let ranked := rank VectorMatch.score allMatches
    let tokenBudget := policy.maxTokens - tokensOf promptMatches
    let selected := fill promptMatches tokenBudget (sliceTo policy.topK ranked)
    if selected = [] then none
    else some (.of policy selected allMatches.length groups promptMatches.length)

/-- `retrieve`, where the outer `none` is an exception. -/
def retrieve [Zero S] [One S] (overrides : PolicyFields S) : Option (Option (Retrieved S)) := do
  let policy := resolvePolicy overrides answers.policyRow
  if answers.enabledKbIds = [] then return none
  let promptMatches := answers.promptGroups.filterMap promptMatch
  let groups := agentKbGroups answers.embedded
  let found ← groups.mapM fun group => do
    let queryVector ← answers.embed group.1
    answers.search group.2 queryVector policy.topK policy.minimumScore
  return select policy promptMatches found.flatten groups.length

end

/-! ### What is answered -/

/-- `GROUP BY c.document_id, c.kb_id`, and each group by `chunk_index`. -/
def Grouped (rows : List (Row V)) (groups : List (List (Row V))) : Prop :=
  ∃ keys : List (ℕ × ℕ), keys.Nodup ∧ (∀ key ∈ keys, ∃ row ∈ rows, row.key = key) ∧
    (∀ row ∈ rows, row.key ∈ keys) ∧
    List.Forall₂ (fun key group => group.Perm (rows.filter (·.key = key)) ∧
      group.Pairwise fun row row' => row.chunk.chunkIndex ≤ row'.chunk.chunkIndex) keys groups

section

variable [LinearOrder S] (tables : Tables V S) (similarity : V → V → S) (agentId : Option ℕ)
  (policy : Policy S) (answers : Answers V S)

/-- The rows of the queries come in some order. Each group of knowledge bases has its query
    embedded, and is searched for its best chunks. -/
structure Answered : Prop where
  policyRow : answers.policyRow = agentId.bind tables.retrievalPolicies
  enabledKbIds : answers.enabledKbIds.Perm ((tables.enabledKbs agentId).map Prod.fst)
  embedded : answers.embedded.Perm (tables.embedded agentId)
  promptGroups : Grouped (tables.rows answers.enabledKbIds Tables.inPromptMode) answers.promptGroups
  search : ∀ group ∈ agentKbGroups answers.embedded, ∃ vector rows,
    answers.embed group.1 = some vector ∧
      answers.nearest group.2 vector policy.topK = some rows ∧
      Best Prod.snd policy.topK.toNat (tables.searchRows similarity group.2 vector) rows

/-- The matches of the documents in prompt mode, in some order. -/
def Tables.IsPrompts [One S] (prompts : List (VectorMatch S)) : Prop :=
  ∃ groups, Grouped (tables.rows ((tables.enabledKbs agentId).map Prod.fst) inPromptMode) groups ∧
    prompts = groups.filterMap promptMatch

/-- The chunks that may be found, each scored for the query as its knowledge base has it
    embedded. -/
def Tables.scored (embed : ℕ → Option V) : List (VectorMatch S) :=
  (tables.joined inAutoMode).filterMap fun row => do
    let configId ← Dict.get? (tables.embedded agentId) row.chunk.kbId
    let vector ← row.chunk.embedding
    let query ← embed configId
    some (.ofRow (row, similarity vector query))

/-- Those with the score that is asked for. -/
def Tables.eligible (embed : ℕ → Option V) : List (VectorMatch S) :=
  (tables.scored similarity agentId embed).filter fun m => policy.minimumScore ≤ m.score

end

/-- Chunks that fit in what the documents in prompt mode leave. The first is kept regardless
    if there is no such document. -/
def Fits (maxTokens : ℤ) (prompts chosen : List (VectorMatch S)) : Prop :=
  chosen = [] ∨ tokensOf chosen ≤ maxTokens - tokensOf prompts ∨
    prompts = [] ∧ chosen.length = 1

/-- The documents in prompt mode, and the longest prefix that fits of the best chunks. -/
def Selects [LinearOrder S] (policy : Policy S) (prompts eligible selected : List (VectorMatch S)) :
    Prop :=
  ∃ best chosen, Best VectorMatch.score policy.topK.toNat eligible best ∧
    selected = prompts ++ chosen ∧
    chosen <+: best ∧ Fits policy.maxTokens prompts chosen ∧
    ∀ longer, longer <+: best → Fits policy.maxTokens prompts longer → longer <+: chosen

/-- The documents in prompt mode and what is chosen of the chunks, none twice, or `None` if
    there is nothing to select from or no chunk is asked for. -/
def Retrieves [LinearOrder S] [One S] (tables : Tables V S) (similarity : V → V → S)
    (agentId : Option ℕ) (policy : Policy S) (embed : ℕ → Option V)
    (outcome : Option (Retrieved S)) : Prop :=
  ∃ prompts, tables.IsPrompts agentId prompts ∧
    let eligible := tables.eligible similarity agentId policy embed
    (outcome = none ↔ prompts = [] ∧ (eligible = [] ∨ policy.topK ≤ 0)) ∧
      ∀ result ∈ outcome, ∃ selected candidates groups,
        Selects policy prompts eligible selected ∧
          (selected.map VectorMatch.chunkId).Nodup ∧
          result = .of policy selected candidates groups prompts.length

/-! ### The budget -/

theorem tokensOf_cons (m : VectorMatch S) (ms : List (VectorMatch S)) :
    tokensOf (m :: ms) = m.tokens + tokensOf ms := by
  rw [tokensOf, List.map_cons, List.sum_cons, tokensOf]

/-- The loop takes the longest prefix that fits, which is that of the first match if nothing
    is selected before. -/
theorem fill_eq (selected : List (VectorMatch S)) (budget : ℤ) (ms : List (VectorMatch S)) :
    ∃ chosen, fill selected budget ms = selected ++ chosen ∧ chosen <+: ms ∧
      (chosen = [] ∨ tokensOf chosen ≤ budget ∨ selected = [] ∧ chosen.length = 1) ∧
      ∀ longer, longer <+: ms →
        (longer = [] ∨ tokensOf longer ≤ budget ∨ selected = [] ∧ longer.length = 1) →
        longer <+: chosen := by
  induction ms generalizing selected budget with
  | nil => exact ⟨[], by simp [fill], List.nil_prefix, .inl rfl, fun longer h _ => h⟩
  | cons m ms ih =>
    rw [fill]
    split_ifs with hbreak
    · -- no prefix but the empty one fits
      refine ⟨[], by simp, List.nil_prefix, .inl rfl, fun longer hlonger hfits => ?_⟩
      rcases hfits with rfl | htokens | ⟨rfl, -⟩
      · exact List.nil_prefix
      · rcases List.prefix_cons_iff.1 hlonger with rfl | ⟨tail, rfl, -⟩
        · exact List.nil_prefix
        · rw [tokensOf_cons] at htokens
          push_cast at htokens
          omega
      · exact absurd rfl hbreak.1
    · obtain ⟨chosen, hfill, hprefix, hfits, hlongest⟩ := ih (selected ++ [m]) (budget - m.tokens)
      have hnonempty : selected ++ [m] ≠ [] := by simp
      refine ⟨m :: chosen, by rw [hfill, List.append_assoc, List.singleton_append],
        List.prefix_cons_inj m |>.2 hprefix, ?_, fun longer hlonger hfits' => ?_⟩
      · rw [not_and_or, not_not] at hbreak
        rcases hfits with rfl | htokens | ⟨hnil, -⟩
        · rcases hbreak with hnil | hbudget
          · exact .inr (.inr ⟨hnil, rfl⟩)
          · refine .inr (.inl ?_)
            rw [tokensOf_cons]
            simpa [tokensOf] using hbudget
        · refine .inr (.inl ?_)
          rw [tokensOf_cons]
          push_cast
          omega
        · exact absurd hnil hnonempty
      · rcases List.prefix_cons_iff.1 hlonger with rfl | ⟨tail, rfl, htail⟩
        · exact List.nil_prefix
        · rw [List.prefix_cons_inj]
          refine hlongest tail htail ?_
          rcases hfits' with hnil | htokens | ⟨-, hlength⟩
          · cases hnil
          · rw [tokensOf_cons] at htokens
            push_cast at htokens
            exact .inr (.inl (by omega))
          · exact .inl (List.eq_nil_of_length_eq_zero (Nat.succ.inj hlength))

/-! ### The groups -/

section Groups

variable {rows : List (ℕ × ℕ)} {kbId configId : ℕ}

theorem agentKbGroups_spec (rows : List (ℕ × ℕ)) :
    ((agentKbGroups rows).map Prod.fst).Nodup ∧ ∀ configId,
      ((agentKbGroups rows).get? configId).getD [] =
        (rows.filter (·.2 = configId)).map Prod.fst := by
  induction rows using List.reverseRecOn with
  | nil => exact ⟨List.nodup_nil, fun _ => rfl⟩
  | append_singleton rows row ih =>
    obtain ⟨hkeys, hgroups⟩ := ih
    rw [agentKbGroups, List.foldl_concat]
    change ((addKb (agentKbGroups rows) row).map Prod.fst).Nodup ∧ _
    refine ⟨Dict.nodup_keys_set hkeys, fun configId => ?_⟩
    change ((addKb (agentKbGroups rows) row).get? configId).getD [] = _
    rw [addKb, Dict.get?_set, List.filter_append, List.map_append]
    split_ifs with hrow
    · subst hrow
      rw [Option.getD_some, hgroups]
      simp
    · rw [hgroups, List.filter_singleton]
      simp [Ne.symm hrow]

theorem mem_agentKbGroups {kbIds : List ℕ} (h : (configId, kbIds) ∈ agentKbGroups rows) :
    kbId ∈ kbIds ↔ (kbId, configId) ∈ rows := by
  obtain ⟨hkeys, hgroups⟩ := agentKbGroups_spec rows
  have hget := hgroups configId
  rw [Dict.get?_eq_some_of_mem hkeys h, Option.getD_some] at hget
  rw [hget]
  simp

theorem exists_agentKbGroups (h : (kbId, configId) ∈ rows) :
    ∃ kbIds, (configId, kbIds) ∈ agentKbGroups rows := by
  obtain ⟨-, hgroups⟩ := agentKbGroups_spec rows
  have hget := hgroups configId
  cases hcase : (agentKbGroups rows).get? configId with
  | some kbIds => exact ⟨kbIds, Dict.mem_of_get?_eq_some hcase⟩
  | none =>
    rw [hcase, Option.getD_none, eq_comm, List.map_eq_nil_iff, List.filter_eq_nil_iff] at hget
    exact absurd (decide_eq_true rfl) (hget _ h)

end Groups

/-! ### The tables -/

theorem map_filterMap_sublist {α β γ : Type} {f : α → Option β} {g : β → γ} (key : α → γ)
    (h : ∀ a b, f a = some b → g b = key a) (l : List α) :
    ((l.filterMap f).map g).Sublist (l.map key) := by
  induction l with
  | nil => exact List.Sublist.slnil
  | cons a l ih =>
    rw [List.filterMap_cons, List.map_cons]
    cases hf : f a with
    | none => exact ih.cons _
    | some b =>
      rw [List.map_cons, h a b hf]
      exact ih.cons_cons _

section Tables

variable {tables : Tables V S} {p : Document → Bool} {kbIds : List ℕ} {row row' : Row V}
  {agentId : Option ℕ}

theorem mem_joined (h : row ∈ tables.joined p) :
    row.chunk ∈ tables.chunks ∧
      ∃ document, tables.documents row.chunk.documentId = some document ∧ p document := by
  obtain ⟨chunk, hchunk, hrow⟩ := List.mem_filterMap.1 h
  simp only [Option.bind_eq_bind, Option.bind_eq_some_iff, Option.some_inj] at hrow
  obtain ⟨document, hdocument, kb, -, rfl⟩ := hrow
  obtain ⟨hdocument, hp⟩ := Option.filter_eq_some_iff.1 hdocument
  exact ⟨hchunk, document, hdocument, (Bool.and_eq_true_iff.1 hp).2⟩

theorem nodup_joined : ((tables.joined p).map (·.chunk.id)).Nodup := by
  refine tables.chunkIds.sublist (map_filterMap_sublist _ (fun chunk row hrow => ?_) _)
  simp only [Option.bind_eq_bind, Option.bind_eq_some_iff, Option.some_inj] at hrow
  obtain ⟨document, -, kb, -, rfl⟩ := hrow
  rfl

/-- A chunk is found by its id. -/
theorem chunk_eq (h : row.chunk ∈ tables.chunks) (h' : row'.chunk ∈ tables.chunks)
    (hid : row.chunk.id = row'.chunk.id) : row.chunk = row'.chunk :=
  List.inj_on_of_nodup_map tables.chunkIds h h' hid

theorem mem_embedded_iff {kbId configId : ℕ} :
    (kbId, configId) ∈ tables.embedded agentId ↔
      ∃ kb, (kbId, kb) ∈ tables.enabledKbs agentId ∧ kb.embeddingConfigId = some configId := by
  simp [Tables.embedded]

theorem knowledgeBase_of_mem {kbId : ℕ} {kb : KnowledgeBase}
    (h : (kbId, kb) ∈ tables.enabledKbs agentId) : tables.knowledgeBases kbId = some kb := by
  obtain ⟨row, -, hrow⟩ := List.mem_filterMap.1 h
  split_ifs at hrow
  obtain ⟨kb', hkb', heq⟩ := Option.map_eq_some_iff.1 hrow
  obtain ⟨rfl, rfl⟩ := Prod.mk.injEq .. ▸ heq
  exact (Option.filter_eq_some_iff.1 hkb').1

/-- A knowledge base has one config. -/
theorem get?_embedded_iff {kbId configId : ℕ} :
    Dict.get? (tables.embedded agentId) kbId = some configId ↔
      (kbId, configId) ∈ tables.embedded agentId := by
  refine ⟨Dict.mem_of_get?_eq_some, fun h => ?_⟩
  cases hget : Dict.get? (tables.embedded agentId) kbId with
  | none => exact absurd (List.mem_map_of_mem h) (Dict.get?_eq_none_iff.1 hget)
  | some configId' =>
    obtain ⟨kb, hkb, hconfig⟩ := mem_embedded_iff.1 h
    obtain ⟨kb', hkb', hconfig'⟩ := mem_embedded_iff.1 (Dict.mem_of_get?_eq_some hget)
    obtain rfl := Option.some.inj
      ((knowledgeBase_of_mem hkb).symm.trans (knowledgeBase_of_mem hkb'))
    rw [← hconfig, hconfig']

end Tables

/-! ### The matches -/

section Matches

variable {tables : Tables V S} {similarity : V → V → S} {agentId : Option ℕ}
  {kbIds : List ℕ} {vector : V} {m : VectorMatch S} {embed : ℕ → Option V}

theorem mem_searchRows_iff :
    m ∈ (tables.searchRows similarity kbIds vector).map VectorMatch.ofRow ↔
      ∃ row ∈ tables.joined Tables.inAutoMode, row.chunk.kbId ∈ kbIds ∧
        ∃ v, row.chunk.embedding = some v ∧ m = .ofRow (row, similarity v vector) := by
  simp only [Tables.searchRows, Tables.rows, List.mem_map, List.mem_filterMap, List.mem_filter,
    Option.map_eq_some_iff, decide_eq_true_eq]
  constructor
  · rintro ⟨_, ⟨row, ⟨hrow, hkb⟩, v, hv, rfl⟩, rfl⟩
    exact ⟨row, hrow, hkb, v, hv, rfl⟩
  · rintro ⟨row, hrow, hkb, v, hv, rfl⟩
    exact ⟨_, ⟨row, ⟨hrow, hkb⟩, v, hv, rfl⟩, rfl⟩

theorem mem_scored_iff :
    m ∈ tables.scored similarity agentId embed ↔
      ∃ row ∈ tables.joined Tables.inAutoMode, ∃ configId,
        (row.chunk.kbId, configId) ∈ tables.embedded agentId ∧
        ∃ v, row.chunk.embedding = some v ∧
          ∃ query, embed configId = some query ∧ m = .ofRow (row, similarity v query) := by
  simp only [Tables.scored, List.mem_filterMap, Option.bind_eq_bind, Option.bind_eq_some_iff,
    Option.some_inj, get?_embedded_iff, eq_comm (b := m)]

theorem nodup_scored :
    ((tables.scored similarity agentId embed).map VectorMatch.chunkId).Nodup := by
  refine nodup_joined.sublist (map_filterMap_sublist _ (fun row m hm => ?_) _)
  simp only [Option.bind_eq_bind, Option.bind_eq_some_iff, Option.some_inj] at hm
  obtain ⟨configId, -, v, -, query, -, rfl⟩ := hm
  rfl

theorem nodup_searchRows :
    (((tables.searchRows similarity kbIds vector).map VectorMatch.ofRow).map
      VectorMatch.chunkId).Nodup := by
  rw [List.map_map, Tables.searchRows]
  refine (nodup_joined (p := Tables.inAutoMode)).sublist (List.Sublist.trans
    (map_filterMap_sublist (fun row : Row V => row.chunk.id) (fun row r hr => ?_) _)
    (List.filter_sublist.map _))
  obtain ⟨v, -, rfl⟩ := Option.map_eq_some_iff.1 hr
  rfl

/-- The chunks of all groups are all that may be found. -/
theorem perm_scored {embedded : List (ℕ × ℕ)} (hembedded : embedded.Perm (tables.embedded agentId))
    {query : ℕ × List ℕ → V}
    (hquery : ∀ group ∈ agentKbGroups embedded, embed group.1 = some (query group)) :
    ((agentKbGroups embedded).flatMap fun group =>
      (tables.searchRows similarity group.2 (query group)).map VectorMatch.ofRow).Perm
      (tables.scored similarity agentId embed) := by
  refine (List.perm_ext_iff_of_nodup (List.nodup_flatMap.2 ⟨fun group _ => ?_, ?_⟩) ?_).2
    fun m => ?_
  · exact nodup_searchRows.of_map
  · -- two groups share no chunk, since its knowledge base has one config
    refine (List.pairwise_map.1 (agentKbGroups_spec embedded).1).imp_of_mem ?_
    intro group group' hgroup hgroup' hne m hm hm'
    obtain ⟨row, hrow, hkb, v, -, rfl⟩ := mem_searchRows_iff.1 hm
    obtain ⟨row', hrow', hkb', v', -, heq⟩ := mem_searchRows_iff.1 hm'
    have hkbId : row.chunk.kbId = row'.chunk.kbId := congrArg VectorMatch.kbId heq
    rw [mem_agentKbGroups hgroup, hembedded.mem_iff, ← get?_embedded_iff] at hkb
    rw [mem_agentKbGroups hgroup', hembedded.mem_iff, ← get?_embedded_iff, ← hkbId] at hkb'
    exact hne (Option.some.inj (hkb.symm.trans hkb'))
  · exact nodup_scored.of_map
  · rw [List.mem_flatMap, mem_scored_iff]
    constructor
    · rintro ⟨group, hgroup, hm⟩
      obtain ⟨row, hrow, hkb, v, hv, rfl⟩ := mem_searchRows_iff.1 hm
      rw [mem_agentKbGroups hgroup, hembedded.mem_iff] at hkb
      exact ⟨row, hrow, group.1, hkb, v, hv, query group, hquery group hgroup, rfl⟩
    · rintro ⟨row, hrow, configId, hkb, v, hv, q, hq, rfl⟩
      rw [← hembedded.mem_iff] at hkb
      obtain ⟨kbIds, hgroup⟩ := exists_agentKbGroups hkb
      obtain rfl := Option.some.inj (hq.symm.trans (hquery _ hgroup))
      exact ⟨_, hgroup, mem_searchRows_iff.2
        ⟨row, hrow, (mem_agentKbGroups hgroup).2 hkb, v, hv, rfl⟩⟩

variable [One S] {rows : List (Row V)} {keys : List (ℕ × ℕ)} {groups : List (List (Row V))}

theorem chunkId_promptMatch {group : List (Row V)} (h : promptMatch group = some m) :
    ∃ row ∈ group, m.chunkId = row.chunk.id := by
  cases group with
  | nil => cases h
  | cons row group =>
    obtain rfl := Option.some.inj h
    exact ⟨row, List.mem_cons_self, rfl⟩

/-- The match of a document is under the id of a chunk of it. -/
theorem exists_row_of_mem_prompts
    (h : List.Forall₂ (fun key group => group.Perm (rows.filter (·.key = key)) ∧
      group.Pairwise fun row row' => row.chunk.chunkIndex ≤ row'.chunk.chunkIndex) keys groups)
    (hm : m ∈ groups.filterMap promptMatch) :
    ∃ row ∈ rows, row.key ∈ keys ∧ m.chunkId = row.chunk.id := by
  obtain ⟨group, hgroup, hmatch⟩ := List.mem_filterMap.1 hm
  obtain ⟨row, hrow, hid⟩ := chunkId_promptMatch hmatch
  obtain ⟨i, hi, rfl⟩ := List.mem_iff_getElem.1 hgroup
  have hlength := h.length_eq
  have hperm := (List.forall₂_iff_get.1 h).2 i (by omega) hi
  have hmem := List.mem_filter.1 (hperm.1.mem_iff.1 hrow)
  exact ⟨row, hmem.1, of_decide_eq_true hmem.2 ▸ List.get_mem _ _, hid⟩

theorem nodup_prompts (hrows : ∀ row ∈ rows, row.chunk ∈ tables.chunks) (hkeys : keys.Nodup)
    (h : List.Forall₂ (fun key group => group.Perm (rows.filter (·.key = key)) ∧
      group.Pairwise fun row row' => row.chunk.chunkIndex ≤ row'.chunk.chunkIndex) keys groups) :
    ((groups.filterMap promptMatch : List (VectorMatch S)).map VectorMatch.chunkId).Nodup := by
  induction h with
  | nil => exact List.nodup_nil
  | @cons key group keys groups hgroup hgroups ih =>
    rw [List.nodup_cons] at hkeys
    rw [List.filterMap_cons]
    cases hm : (promptMatch group : Option (VectorMatch S)) with
    | none => exact ih hkeys.2
    | some m =>
      refine List.nodup_cons.2 ⟨fun hmem => ?_, ih hkeys.2⟩
      obtain ⟨m', hm', hid⟩ := List.mem_map.1 hmem
      obtain ⟨row, hrow, hrowId⟩ := chunkId_promptMatch hm
      obtain ⟨hrow, hkey⟩ := List.mem_filter.1 (hgroup.1.mem_iff.1 hrow)
      obtain ⟨row', hrow', hkey', hrowId'⟩ := exists_row_of_mem_prompts hgroups hm'
      have hchunk := chunk_eq (hrows row hrow) (hrows row' hrow')
        (hrowId.symm.trans (hid.symm.trans hrowId'))
      have hsame : row.key = row'.key := by rw [Row.key, hchunk, Row.key]
      exact hkeys.1 (of_decide_eq_true hkey ▸ hsame ▸ hkey')

end Matches

/-! ### What is returned -/

section Retrieve

variable [LinearOrder S] {tables : Tables V S} {similarity : V → V → S}
  {agentId : Option ℕ} {policy : Policy S} {answers : Answers V S}

/-- A search returns the best of its group that have the score. -/
theorem best_search (kbIds : List ℕ) (vector : V) {rows : List (Row V × S)}
    (hnearest : answers.nearest kbIds vector policy.topK = some rows)
    (hbest : Best Prod.snd policy.topK.toNat (tables.searchRows similarity kbIds vector) rows) :
    ∃ found, answers.search kbIds vector policy.topK policy.minimumScore = some found ∧
      Best VectorMatch.score policy.topK.toNat
        (((tables.searchRows similarity kbIds vector).map VectorMatch.ofRow).filter
          fun m => policy.minimumScore ≤ m.score) found := by
  rw [Answers.search]
  split_ifs with hnil
  · subst hnil
    have hnone : tables.searchRows similarity [] vector = [] := by
      simp [Tables.searchRows, Tables.rows]
    rw [hnone]
    exact ⟨[], rfl, [], List.Perm.refl _, List.Pairwise.nil, List.take_nil.symm⟩
  · rw [hnearest]
    have hmap : Best VectorMatch.score policy.topK.toNat
        ((tables.searchRows similarity kbIds vector).map VectorMatch.ofRow)
        (rows.map VectorMatch.ofRow) :=
      Best.map VectorMatch.score hbest
    exact ⟨_, rfl, hmap.filter policy.minimumScore⟩

/-- The groups are all searched, and the best of what is found are the best of all chunks. -/
theorem best_found (h : Answered tables similarity agentId policy answers) :
    ∃ found, ((agentKbGroups answers.embedded).mapM fun group => do
        let queryVector ← answers.embed group.1
        answers.search group.2 queryVector policy.topK policy.minimumScore) = some found ∧
      Best VectorMatch.score policy.topK.toNat
        (tables.eligible similarity agentId policy answers.embed)
        (sliceTo policy.topK (rank VectorMatch.score found.flatten)) := by
  have hgroup : ∀ group ∈ agentKbGroups answers.embedded, ∃ query found,
      answers.embed group.1 = some query ∧
      answers.search group.2 query policy.topK policy.minimumScore = some found ∧
      Best VectorMatch.score policy.topK.toNat
        (((tables.searchRows similarity group.2 query).map VectorMatch.ofRow).filter
          fun m => policy.minimumScore ≤ m.score) found := by
    intro group hgroup
    obtain ⟨query, rows, hquery, hnearest, hbest⟩ := h.search group hgroup
    obtain ⟨found, hfound, hbest⟩ := best_search group.2 query hnearest hbest
    exact ⟨query, found, hquery, hfound, hbest⟩
  rcases isEmpty_or_nonempty V with hempty | hnonempty
  · -- without vectors there is nothing to search
    have hgroups : agentKbGroups answers.embedded = [] := List.eq_nil_iff_forall_not_mem.2
      fun group hmem => (hgroup group hmem).elim fun query _ => hempty.elim query
    have heligible : tables.eligible similarity agentId policy answers.embed = [] := by
      refine List.eq_nil_iff_forall_not_mem.2 fun m hm => ?_
      obtain ⟨_, _, _, _, v, _⟩ := mem_scored_iff.1 (List.mem_filter.1 hm).1
      exact hempty.elim v
    rw [hgroups, heligible]
    exact ⟨[], rfl, [], List.Perm.refl _, List.Pairwise.nil, by simp [rank, sliceTo]⟩
  · choose! query found hquery hsearch hbest using hgroup
    refine ⟨_, Python.mapM_eq_some_map (g := found) fun group hmem => ?_, ?_⟩
    · rw [hquery group hmem]
      exact hsearch group hmem
    · have hall := Best.flatMap hbest
      rw [← List.filter_flatMap] at hall
      have hall := hall.perm ((perm_scored h.embedded hquery).filter _)
      have hslice : sliceTo policy.topK
            (rank VectorMatch.score ((agentKbGroups answers.embedded).map found).flatten) =
          (rank VectorMatch.score ((agentKbGroups answers.embedded).flatMap found)).take
            policy.topK.toNat := by
        rw [sliceTo, ← List.flatMap_def]
        split_ifs with hk
        · rfl
        · -- a search for less than nothing finds nothing
          have hzero : policy.topK.toNat = 0 := Int.toNat_eq_zero.2 (by omega)
          have hnone : (agentKbGroups answers.embedded).flatMap found = [] :=
            List.flatMap_eq_nil_iff.2 fun group hmem =>
              (hbest group hmem).eq_nil_iff.2 (.inr hzero)
          rw [hnone]
          simp [rank]
      rw [hslice]
      exact hall

/-- The matches that are selected. -/
theorem selects_fill (prompts : List (VectorMatch S)) {eligible best : List (VectorMatch S)}
    (h : Best VectorMatch.score policy.topK.toNat eligible best) :
    Selects policy prompts eligible
      (fill prompts (policy.maxTokens - tokensOf prompts) best) := by
  obtain ⟨chosen, hfill, hprefix, hfits, hlongest⟩ :=
    fill_eq prompts (policy.maxTokens - tokensOf prompts) best
  exact ⟨best, chosen, h, hfill, hprefix, hfits, fun longer => hlongest longer⟩

/-- Nothing is selected if there is nothing to select. -/
theorem Selects.eq_nil_iff {prompts eligible selected : List (VectorMatch S)}
    (h : Selects policy prompts eligible selected) :
    selected = [] ↔ prompts = [] ∧ (eligible = [] ∨ policy.topK ≤ 0) := by
  obtain ⟨best, chosen, hbest, rfl, hprefix, -, hlongest⟩ := h
  rw [List.append_eq_nil_iff, ← Int.toNat_eq_zero, ← hbest.eq_nil_iff]
  refine and_congr_right fun hprompts => ⟨fun hchosen => ?_, fun hnil => ?_⟩
  · -- the first of the best fits alone
    cases best with
    | nil => rfl
    | cons m best =>
      have hone := hlongest [m] (by simp) (.inr (.inr ⟨hprompts, rfl⟩))
      rw [hchosen] at hone
      cases List.prefix_nil.1 hone
  · exact List.prefix_nil.1 (hnil ▸ hprefix)

theorem select_spec {eligible allMatches : List (VectorMatch S)} (prompts : List (VectorMatch S))
    (groups : ℕ) (hbest : Best VectorMatch.score policy.topK.toNat eligible
      (sliceTo policy.topK (rank VectorMatch.score allMatches))) :
    (select policy prompts allMatches groups = none ↔
      prompts = [] ∧ (eligible = [] ∨ policy.topK ≤ 0)) ∧
    ∀ result ∈ select policy prompts allMatches groups, ∃ selected,
      Selects policy prompts eligible selected ∧
        result = .of policy selected allMatches.length groups prompts.length := by
  have hselects := selects_fill prompts hbest
  rw [← hselects.eq_nil_iff, select]
  by_cases hnone : prompts = [] ∧ allMatches = []
  · obtain ⟨rfl, rfl⟩ := hnone
    rw [if_pos ⟨rfl, rfl⟩]
    refine ⟨iff_of_true rfl ?_, nofun⟩
    simp [rank, sliceTo, fill]
  · rw [if_neg hnone]
    dsimp only
    split_ifs with hnil
    · exact ⟨iff_of_true rfl hnil, nofun⟩
    · refine ⟨iff_of_false (by simp) hnil, fun result hresult => ?_⟩
      exact ⟨_, hselects, (Option.some.inj hresult).symm⟩

/-- No chunk is there twice. -/
theorem Selects.nodup [One S] {prompts selected : List (VectorMatch S)} {embed : ℕ → Option V}
    (h : Selects policy prompts (tables.eligible similarity agentId policy embed) selected)
    (hprompts : tables.IsPrompts agentId prompts) :
    (selected.map VectorMatch.chunkId).Nodup := by
  obtain ⟨best, chosen, ⟨ranked, hperm, -, rfl⟩, rfl, hprefix, -⟩ := h
  obtain ⟨groups, ⟨keys, hkeys, -, -, hgroups⟩, rfl⟩ := hprompts
  have hjoined : ∀ row ∈ tables.rows ((tables.enabledKbs agentId).map Prod.fst)
      Tables.inPromptMode, row ∈ tables.joined Tables.inPromptMode :=
    fun row hrow => (List.mem_filter.1 hrow).1
  have hsub : chosen.Sublist ranked := hprefix.sublist.trans (List.take_sublist _ _)
  rw [List.map_append, List.nodup_append]
  refine ⟨nodup_prompts (fun row hrow => (mem_joined (hjoined row hrow)).1) hkeys hgroups, ?_, ?_⟩
  · refine List.Nodup.sublist (hsub.map _) ((hperm.map _).nodup_iff.2 ?_)
    exact nodup_scored.sublist (List.filter_sublist.map _)
  · -- a document is in one mode
    rintro _ hid _ hid' rfl
    obtain ⟨m, hm, rfl⟩ := List.mem_map.1 hid
    obtain ⟨m', hm', heq⟩ := List.mem_map.1 hid'
    obtain ⟨row, hrow, -, hrowId⟩ := exists_row_of_mem_prompts hgroups hm
    have hscored := (List.mem_filter.1 (hperm.mem_iff.1 (hsub.subset hm'))).1
    obtain ⟨row', hrow', _, _, _, _, _, _, rfl⟩ := mem_scored_iff.1 hscored
    obtain ⟨hchunk, document, hdocument, hmode⟩ := mem_joined (hjoined row hrow)
    obtain ⟨hchunk', document', hdocument', hmode'⟩ := mem_joined hrow'
    rw [chunk_eq hchunk hchunk' (hrowId.symm.trans heq.symm), hdocument'] at hdocument
    obtain rfl := Option.some.inj hdocument
    have hprompt := (Bool.and_eq_true_iff.1 hmode).1
    rw [Tables.inAutoMode, decide_eq_true_eq] at hmode'
    rw [hmode'] at hprompt
    cases hprompt

theorem isPrompts [One S] (h : Answered tables similarity agentId policy answers) :
    tables.IsPrompts agentId (answers.promptGroups.filterMap (promptMatch (S := S))) := by
  refine ⟨answers.promptGroups, ?_, rfl⟩
  have hrows : tables.rows ((tables.enabledKbs agentId).map Prod.fst) Tables.inPromptMode =
      tables.rows answers.enabledKbIds Tables.inPromptMode := by
    refine List.filter_congr fun row _ => ?_
    rw [decide_eq_decide, h.enabledKbIds.mem_iff]
  rw [hrows]
  exact h.promptGroups

/-- An agent without knowledge bases has nothing to select from. -/
theorem nothing_of_enabledKbIds [One S] (h : Answered tables similarity agentId policy answers)
    (hnil : answers.enabledKbIds = []) :
    (answers.promptGroups.filterMap promptMatch : List (VectorMatch S)) = [] ∧
      tables.eligible similarity agentId policy answers.embed = [] := by
  have hkbs : tables.enabledKbs agentId = [] :=
    List.map_eq_nil_iff.1 (List.Perm.nil_eq (hnil ▸ h.enabledKbIds)).symm
  constructor
  · obtain ⟨keys, -, hkeys, -, hgroups⟩ := h.promptGroups
    have hnone : keys = [] := by
      refine List.eq_nil_iff_forall_not_mem.2 fun key hkey => ?_
      obtain ⟨row, hrow, -⟩ := hkeys key hkey
      rw [hnil] at hrow
      simp [Tables.rows] at hrow
    rw [hnone, List.forall₂_nil_left_iff] at hgroups
    rw [hgroups, List.filterMap_nil]
  · refine List.eq_nil_iff_forall_not_mem.2 fun m hm => ?_
    obtain ⟨row, -, configId, hconfig, -⟩ := mem_scored_iff.1 (List.mem_filter.1 hm).1
    rw [Tables.embedded, hkbs] at hconfig
    cases hconfig

theorem retrieve_selects [Zero S] [One S] (tenantSlug agentSlug : String)
    (overrides : PolicyFields S)
    (h : Answered tables similarity (tables.agentId tenantSlug agentSlug)
      (resolvePolicy overrides answers.policyRow) answers) :
    ∃ outcome, retrieve answers overrides = some outcome ∧
      Retrieves tables similarity (tables.agentId tenantSlug agentSlug)
        (resolvePolicy overrides answers.policyRow) answers.embed outcome := by
  have hprompts := isPrompts h
  obtain ⟨found, hfound, hbest⟩ := best_found h
  by_cases hnil : answers.enabledKbIds = []
  · obtain ⟨hnone, heligible⟩ := nothing_of_enabledKbIds h hnil
    refine ⟨none, ?_, _, hprompts, iff_of_true rfl ⟨hnone, .inl heligible⟩, nofun⟩
    rw [retrieve, if_pos hnil]
    rfl
  · obtain ⟨hiff, hselected⟩ := select_spec (answers.promptGroups.filterMap promptMatch)
      (agentKbGroups answers.embedded).length hbest
    refine ⟨_, ?_, _, hprompts, hiff, fun result hresult => ?_⟩
    · rw [retrieve, if_neg hnil]
      dsimp only
      rw [hfound]
      rfl
    · obtain ⟨selected, hselects, hresult⟩ := hselected result hresult
      exact ⟨selected, _, _, hselects, hselects.nodup hprompts, hresult⟩

end Retrieve

/-! ### Knowledge bases with different embeddings -/

def refunds : Chunk ℤ where
  id := 10
  documentId := 1
  kbId := 5
  chunkIndex := 0
  content := "Refunds are processed within 30 days.".toList
  embedding := some 1
  tokenCount := some 6
  page := none
  language := none
  tags := .obj []
  version := 1

def customs : Chunk ℤ :=
  { refunds with
    id := 12, documentId := 3, kbId := 6, content := "Customs are paid by the buyer.".toList,
    embedding := some 2 }

def delivery : Chunk ℤ :=
  { customs with
    id := 13, chunkIndex := 1, content := "Delivery takes three days.".toList, embedding := some 0,
    tokenCount := none }

def notice : Chunk ℤ :=
  { refunds with
    id := 11, documentId := 2, kbId := 6, content := "Closed on Fridays.".toList,
    embedding := none, tokenCount := none }

/-- The desk has two knowledge bases, one with a document in prompt mode, and the clerk the
    other one only. -/
def offices : Tables ℤ ℤ where
  agentId tenantSlug agentSlug :=
    if tenantSlug = "acme" ∧ agentSlug = "desk" then some 1
    else if tenantSlug = "acme" ∧ agentSlug = "clerk" then some 2
    else none
  retrievalPolicies _ := none
  knowledgeBases kbId :=
    if kbId = 5 then some ⟨"policies", some 7, true, false⟩
    else if kbId = 6 then some ⟨"shipping", some 8, true, false⟩
    else none
  documents documentId :=
    if documentId = 1 then some ⟨"Refund Policy", .ready, .auto, false⟩
    else if documentId = 2 then some ⟨"Notice", .ready, .prompt, false⟩
    else if documentId = 3 then some ⟨"Shipping", .ready, .auto, false⟩
    else none
  chunks := [refunds, notice, customs, delivery]
  agentKnowledgeBases := [⟨1, 5, true⟩, ⟨1, 6, true⟩, ⟨2, 5, true⟩]
  chunkIds := by decide

/-- What there is to find in a group, the best first. -/
def ranking (kbIds : List ℕ) : List (Row ℤ × ℤ) :=
  if kbIds = [5] then [(⟨refunds, "Refund Policy", "policies"⟩, 1)]
  else [(⟨customs, "Shipping", "shipping"⟩, 4), (⟨delivery, "Shipping", "shipping"⟩, 0)]

/-- Each provider embeds the query in its own way. -/
def deskAnswers : Answers ℤ ℤ where
  policyRow := none
  enabledKbIds := [5, 6]
  promptGroups := [[⟨notice, "Notice", "shipping"⟩]]
  embedded := [(5, 7), (6, 8)]
  embed configId := if configId = 7 then some 1 else if configId = 8 then some 2 else none
  nearest kbIds _ topK := some ((ranking kbIds).take topK.toNat)

def clerkAnswers : Answers ℤ ℤ :=
  { deskAnswers with enabledKbIds := [5], promptGroups := [], embedded := [(5, 7)] }

def fromRequest (topK : Option ℤ) : PolicyFields ℤ := ⟨topK, none, none, none, none, none⟩

theorem grouped_nil : Grouped ([] : List (Row ℤ)) [] :=
  ⟨[], List.nodup_nil, by simp, by simp, .nil⟩

theorem answered_desk (policy : Policy ℤ) :
    Answered offices (· * ·) (some 1) policy deskAnswers where
  policyRow := rfl
  enabledKbIds := List.Perm.refl [5, 6]
  embedded := List.Perm.refl [(5, 7), (6, 8)]
  promptGroups := by
    refine ⟨[(2, 6)], List.nodup_singleton _, ?_, ?_, .cons ⟨?_, List.pairwise_singleton _ _⟩ .nil⟩
    · intro key hkey
      obtain rfl := List.mem_singleton.1 hkey
      exact ⟨⟨notice, "Notice", "shipping"⟩, List.mem_singleton.2 rfl, rfl⟩
    · intro row hrow
      obtain rfl : row = ⟨notice, "Notice", "shipping"⟩ := List.mem_singleton.1 hrow
      exact List.mem_singleton.2 rfl
    · exact List.Perm.refl [_]
  search group hgroup := by
    have hgroup : group ∈ [(7, [5]), (8, [6])] := hgroup
    rcases List.mem_cons.1 hgroup with rfl | hgroup
    · exact ⟨1, _, rfl, rfl, ranking [5], List.Perm.refl _, List.pairwise_singleton _ _, rfl⟩
    · obtain rfl := List.mem_singleton.1 hgroup
      exact ⟨2, _, rfl, rfl, ranking [6], List.Perm.refl _, List.pairwise_pair.2 (by decide), rfl⟩

theorem answered_clerk (policy : Policy ℤ) :
    Answered offices (· * ·) (some 2) policy clerkAnswers where
  policyRow := rfl
  enabledKbIds := List.Perm.refl [5]
  embedded := List.Perm.refl [(5, 7)]
  promptGroups := grouped_nil
  search group hgroup := by
    obtain rfl : group = (7, [5]) := List.mem_singleton.1 hgroup
    exact ⟨1, _, rfl, rfl, ranking [5], List.Perm.refl _, List.pairwise_singleton _ _, rfl⟩

/-- The notice comes first, and then the chunks of both groups, the best first. -/
theorem retrieve_selects_desk : ∃ outcome,
    retrieve deskAnswers (fromRequest none) = some outcome ∧
      (outcome.map fun result => result.chunks.map (·.source.chunkId)) = some [11, 12, 10, 13] ∧
      Retrieves offices (· * ·) (some 1) (resolvePolicy (fromRequest none) none)
        deskAnswers.embed outcome := by
  obtain ⟨outcome, houtcome, hretrieves⟩ := retrieve_selects "acme" "desk" (fromRequest none)
    (answered_desk _)
  refine ⟨outcome, houtcome, ?_, hretrieves⟩
  have hrun : ((retrieve deskAnswers (fromRequest none)).bind id).map
      (fun result => result.chunks.map (·.source.chunkId)) = some [11, 12, 10, 13] := by
    decide
  rwa [houtcome] at hrun

/-- Nothing is returned, though a chunk is eligible, if none is asked for. -/
theorem not_none_iff_nothing_eligible :
    ¬ ∀ (tables : Tables ℤ ℤ) (similarity : ℤ → ℤ → ℤ) (agentId : Option ℕ)
      (overrides : PolicyFields ℤ) (answers : Answers ℤ ℤ) (prompts : List (VectorMatch ℤ)),
      Answered tables similarity agentId (resolvePolicy overrides answers.policyRow) answers →
        tables.IsPrompts agentId prompts →
        (retrieve answers overrides = some none ↔ prompts = [] ∧
          tables.eligible similarity agentId (resolvePolicy overrides answers.policyRow)
            answers.embed = []) := by
  intro h
  have hnone : retrieve clerkAnswers (fromRequest (some 0)) = some none := by
    have hrun : (retrieve clerkAnswers (fromRequest (some 0))).map Option.isNone = some true := by
      decide
    obtain ⟨outcome, houtcome, hisNone⟩ := Option.map_eq_some_iff.1 hrun
    rw [houtcome, Option.isNone_iff_eq_none.1 hisNone]
  obtain ⟨-, heligible⟩ := (h offices (· * ·) (some 2) (fromRequest (some 0)) clerkAnswers []
    (answered_clerk _) ⟨[], grouped_nil, rfl⟩).1 hnone
  have hlength := congrArg List.length heligible
  revert hlength
  decide

end Yuviz.Knowledge.Retrieval
