import Yuviz.Knowledge.Chunking

/-!
# The ingestion worker

A job takes the text of a document to the chunks it is retrieved by. The rows are
written in one transaction, which replaces the chunks that were there.

The status of the document is `processing` when the worker reads it back, so that
no version is ever counted up, and chunks for which the response of the embedding
has no vector are left out. A job is done as it should be just when it fails, or
the document was not ready and there were vectors enough (`ingested_iff`).
-/

namespace Yuviz.Knowledge

inductive DocumentStatus
  | pending
  | processing
  | ready
  | failed
  deriving DecidableEq

inductive JobStatus
  | pending
  | running
  | succeeded
  | failed
  deriving DecidableEq

inductive UsageMode
  | auto
  | prompt
  deriving DecidableEq

/-- What goes wrong, of which the rows have the text. -/
inductive IngestionError (Id : Type)
  | notFound (documentId : Id)
  | unsupportedContentType (contentType : String)
  | unicodeDecodeError
  | zeroChunks
  /-- Of the storage, the embedding or the database. -/
  | raised (text : String)
  deriving DecidableEq

structure Document (Id : Type) where
  tenantId : Id
  sourceRef : String
  contentType : String
  language : Option String
  status : DocumentStatus
  error : Option (IngestionError Id)
  version : ℤ
  usageMode : UsageMode
  deriving DecidableEq

structure Job (Id : Type) where
  documentId : Id
  kbId : Id
  status : JobStatus
  error : Option (IngestionError Id)
  attempts : ℕ
  deriving DecidableEq

structure ChunkRow (Id V : Type) where
  documentId : Id
  kbId : Id
  tenantId : Id
  chunkIndex : ℕ
  content : List Char
  embedding : Option V
  tokenCount : ℕ
  language : Option String
  version : ℤ

/-- `kb_documents`, `kb_ingestion_jobs` and `kb_chunks`. -/
structure Database (Id V : Type) where
  documents : Id → Option (Document Id)
  jobs : Id → Option (Job Id)
  chunks : List (ChunkRow Id V)

/-- What the worker calls, each of which may raise an exception with some text. The statements of
the transaction are rolled back unless it commits. -/
structure Services (Id V C P : Type) where
  fetchDocument : Except String Unit
  read : String → Except String ByteArray
  fetchEmbeddingConfig : Id → Except String C
  getProvider : C → Except String P
  embed : P → List (List Char) → Except String (List V)
  commit : Except String Unit

variable {Id V C P : Type}

namespace Database

variable [DecidableEq Id] (db : Database Id V)

/-- An `UPDATE` of the document. -/
def updateDocument (documentId : Id) (f : Document Id → Document Id) : Database Id V :=
  { db with
    documents := fun i => if i = documentId then (db.documents i).map f else db.documents i }

/-- An `UPDATE` of the job. -/
def updateJob (jobId : Id) (f : Job Id → Job Id) : Database Id V :=
  { db with jobs := fun i => if i = jobId then (db.jobs i).map f else db.jobs i }

/-- The chunks of the document. -/
def chunksOf (documentId : Id) : List (ChunkRow Id V) :=
  db.chunks.filter (·.documentId = documentId)

end Database

/-- `raw.decode("utf-8")`, for the content types there are. -/
def extractText (contentType : String) (raw : ByteArray) : Except (IngestionError Id) (List Char) :=
  if contentType = "text/plain" ∨ contentType = "text/markdown" then
    match String.fromUTF8? raw with
    | some text => .ok text.toList
    | none => .error .unicodeDecodeError
  else .error (.unsupportedContentType contentType)

def autoInlineThresholdBytes : ℕ := 500

namespace Services

variable (services : Services Id V C P)

/-- The chunks of a document and their vectors, and how it is used from now on. -/
def prepare (kbId : Id) (docRow : Document Id) :
    Except (IngestionError Id) (List Chunk × List (Option V) × UsageMode) := do
  let raw ← (services.read docRow.sourceRef).mapError .raised
  let text ← extractText docRow.contentType raw
  if raw.size < autoInlineThresholdBytes then
    return ([⟨text, (Python.words text).length⟩], [none], .prompt)
  else
    let newChunks := chunkText text
    if newChunks = [] then throw .zeroChunks
    let embeddingCfg ← (services.fetchEmbeddingConfig kbId).mapError .raised
    let provider ← (services.getProvider embeddingCfg).mapError .raised
    let vectors ← (services.embed provider (newChunks.map (·.content))).mapError .raised
    return (newChunks, vectors.map some, docRow.usageMode)

/-- `(version or 1) + 1 if status == "ready" else version`. -/
def newVersion (docRow : Document Id) : ℤ :=
  if docRow.status = .ready then (if docRow.version = 0 then 1 else docRow.version) + 1
  else docRow.version

/-- The rows for the pairs of `zip(new_chunks, vectors)`. -/
def rows (documentId kbId : Id) (docRow : Document Id) (newChunks : List Chunk)
    (vectors : List (Option V)) : List (ChunkRow Id V) :=
  (newChunks.zip vectors).mapIdx fun i pair =>
    { documentId := documentId
      kbId := kbId
      tenantId := docRow.tenantId
      chunkIndex := i
      content := pair.1.content
      embedding := pair.2
      tokenCount := pair.1.tokenCount
      language := docRow.language
      version := newVersion docRow }

/-- The part of a job that may raise an exception. -/
def ingest [DecidableEq Id] (jobId documentId kbId : Id) (db : Database Id V) :
    Except (IngestionError Id) (Database Id V) := do
  services.fetchDocument.mapError .raised
  match db.documents documentId with
  | none => throw (.notFound documentId)
  | some docRow =>
    let (newChunks, vectors, newUsageMode) ← services.prepare kbId docRow
    services.commit.mapError .raised
    let replaced : Database Id V :=
      { db with
        chunks := db.chunks.filter (·.documentId ≠ documentId) ++
          rows documentId kbId docRow newChunks vectors }
    return (replaced.updateDocument documentId fun doc =>
      { doc with
        status := .ready, error := none, version := newVersion docRow,
        usageMode := newUsageMode }).updateJob jobId fun job => { job with status := .succeeded }

def processOneJob [DecidableEq Id] (jobId : Id) (job : Job Id) (db : Database Id V) :
    Database Id V :=
  let db := db.updateJob jobId fun job =>
    { job with status := .running, attempts := job.attempts + 1 }
  let db := db.updateDocument job.documentId fun doc => { doc with status := .processing }
  match services.ingest jobId job.documentId job.kbId db with
  | .ok db => db
  | .error e =>
    (db.updateDocument job.documentId fun doc =>
      { doc with status := .failed, error := some e }).updateJob jobId fun job =>
      { job with status := .failed, error := some e }

/-! ### What a job is to do -/

/-- The job fails: something raises an exception, or the transaction is rolled back. -/
def Fails (kbId : Id) (doc : Document Id) : Prop :=
  (∃ e, services.fetchDocument = .error e) ∨ (∃ e, services.prepare kbId doc = .error e) ∨
    ∃ e, services.commit = .error e

/-- There is a vector for every chunk. -/
def Enough (kbId : Id) (doc : Document Id) : Prop :=
  ∀ newChunks vectors usageMode,
    services.prepare kbId doc = .ok (newChunks, vectors, usageMode) →
      newChunks.length ≤ vectors.length

/-- The rows are all chunks of the text in order, each with the vector that is its own, or they
are the one chunk of a text that is small. -/
def Complete (kbId : Id) (doc : Document Id) (rows : List (ChunkRow Id V)) : Prop :=
  rows.map (·.chunkIndex) = List.range rows.length ∧
    ∃ raw text, services.read doc.sourceRef = .ok raw ∧
      extractText doc.contentType raw = (.ok text : Except (IngestionError Id) _) ∧
      if raw.size < autoInlineThresholdBytes then
        rows.map (fun r => (r.content, r.tokenCount, r.embedding)) =
          [(text, (Python.words text).length, none)]
      else
        ∃ cfg provider vectors, services.fetchEmbeddingConfig kbId = .ok cfg ∧
          services.getProvider cfg = .ok provider ∧
          services.embed provider ((chunkText text).map (·.content)) = .ok vectors ∧
          rows.map (fun r => Chunk.mk r.content r.tokenCount) = chunkText text ∧
          rows.map (·.embedding) = (vectors.take rows.length).map some

/-- The document is ready and its chunks are complete, with a version of their own if there were
some before, or it has failed and the chunks are those from before. -/
def Ingested [DecidableEq Id] (jobId : Id) (job : Job Id) (doc : Document Id)
    (db db' : Database Id V) : Prop :=
  ∃ doc' job', db'.documents job.documentId = some doc' ∧ db'.jobs jobId = some job' ∧
    (doc'.status = .ready ∧ job'.status = .succeeded ∧
        services.Complete job.kbId doc (db'.chunksOf job.documentId) ∧
        (doc.status = .ready → doc.version < doc'.version) ∨
      doc'.status = .failed ∧ job'.status = .failed ∧ db'.chunks = db.chunks)

end Services

/-! ### The rows -/

namespace Services

section

variable {services : Services Id V C P} {doc docRow : Document Id} {documentId kbId : Id}
  {newChunks : List Chunk} {vectors : List (Option V)} {usageMode : UsageMode}

theorem of_prepare_eq_ok
    (h : services.prepare kbId doc = .ok (newChunks, vectors, usageMode)) :
    ∃ raw text, services.read doc.sourceRef = .ok raw ∧
      extractText doc.contentType raw = (.ok text : Except (IngestionError Id) _) ∧
      if raw.size < autoInlineThresholdBytes then
        newChunks = [⟨text, (Python.words text).length⟩] ∧ vectors = [none]
      else
        newChunks = chunkText text ∧
          ∃ cfg provider embedded, services.fetchEmbeddingConfig kbId = .ok cfg ∧
            services.getProvider cfg = .ok provider ∧
            services.embed provider ((chunkText text).map (·.content)) = .ok embedded ∧
            vectors = embedded.map some := by
  simp only [prepare, bind, Except.bind, pure, Except.pure] at h
  rcases hread : services.read doc.sourceRef with e | raw
  · simp [hread, Except.mapError] at h
  rcases htext : (extractText doc.contentType raw : Except (IngestionError Id) _) with e | text
  · simp [hread, Except.mapError, htext] at h
  refine ⟨raw, text, rfl, htext, ?_⟩
  simp only [hread, Except.mapError, htext] at h
  split_ifs at h ⊢ with hsmall hzero
  · simp only [Except.ok.injEq, Prod.mk.injEq] at h
    exact ⟨h.1.symm, h.2.1.symm⟩
  · rcases hcfg : services.fetchEmbeddingConfig kbId with e | cfg
    · simp [hcfg] at h
    rcases hprovider : services.getProvider cfg with e | provider
    · simp [hcfg, hprovider] at h
    rcases hembed : services.embed provider ((chunkText text).map (·.content)) with e | embedded
    · simp [hcfg, hprovider, hembed] at h
    simp only [hcfg, hprovider, hembed, Except.ok.injEq, Prod.mk.injEq] at h
    exact ⟨h.1.symm, cfg, provider, embedded, rfl, hprovider, hembed, h.2.1.symm⟩

@[simp] theorem length_rows :
    (rows documentId kbId docRow newChunks vectors).length =
      min newChunks.length vectors.length := by
  rw [rows, List.length_mapIdx, List.length_zip]

theorem map_chunkIndex_rows :
    (rows documentId kbId docRow newChunks vectors).map (·.chunkIndex) =
      List.range (rows documentId kbId docRow newChunks vectors).length :=
  List.ext_getElem (by simp) fun i _ _ => by simp [rows]

theorem map_chunk_rows :
    (rows documentId kbId docRow newChunks vectors).map (fun r => Chunk.mk r.content r.tokenCount) =
      newChunks.take vectors.length :=
  List.ext_getElem (by simp [min_comm]) fun i _ _ => by simp [rows]

theorem map_embedding_rows :
    (rows documentId kbId docRow newChunks vectors).map (·.embedding) =
      vectors.take newChunks.length :=
  List.ext_getElem (by simp) fun i _ _ => by simp [rows]

/-- The chunks are complete if no pair is missing. -/
theorem complete_rows_iff (h : services.prepare kbId doc = .ok (newChunks, vectors, usageMode)) :
    services.Complete kbId doc (rows documentId kbId docRow newChunks vectors) ↔
      newChunks.length ≤ vectors.length := by
  obtain ⟨raw, text, hread, htext, hprepared⟩ := of_prepare_eq_ok h
  constructor
  · rintro ⟨-, raw', text', hread', htext', hcomplete⟩
    obtain rfl : raw = raw' := by simpa [hread] using hread'
    obtain rfl : text = text' := by simpa [htext] using htext'
    split_ifs at hprepared hcomplete with hsmall
    · rw [hprepared.1, hprepared.2]
      rfl
    · obtain ⟨cfg, provider, vectors', -, -, -, hchunks, -⟩ := hcomplete
      rw [map_chunk_rows, ← hprepared.1] at hchunks
      have hlength := congrArg List.length hchunks
      rw [List.length_take] at hlength
      omega
  · intro hle
    refine ⟨map_chunkIndex_rows, raw, text, hread, htext, ?_⟩
    split_ifs at hprepared ⊢ with hsmall
    · obtain ⟨rfl, rfl⟩ := hprepared
      rfl
    · obtain ⟨rfl, cfg, provider, embedded, hcfg, hprovider, hembed, rfl⟩ := hprepared
      refine ⟨cfg, provider, embedded, hcfg, hprovider, hembed, ?_, ?_⟩
      · rw [map_chunk_rows, List.take_of_length_le hle]
      · rw [map_embedding_rows, length_rows, min_eq_left hle, List.map_take]

end

end Services

/-! ### The job -/

section

variable [DecidableEq Id] {services : Services Id V C P} {db : Database Id V} {doc : Document Id}
  {job row : Job Id} {jobId documentId kbId : Id} {newChunks : List Chunk}
  {vectors : List (Option V)} {usageMode : UsageMode}

@[simp] theorem Database.documents_updateDocument {f : Document Id → Document Id} :
    (db.updateDocument documentId f).documents documentId = (db.documents documentId).map f :=
  if_pos rfl

@[simp] theorem Database.jobs_updateJob {f : Job Id → Job Id} :
    (db.updateJob jobId f).jobs jobId = (db.jobs jobId).map f :=
  if_pos rfl

@[simp] theorem Database.documents_updateJob {f : Job Id → Job Id} :
    (db.updateJob jobId f).documents = db.documents := rfl

@[simp] theorem Database.jobs_updateDocument {f : Document Id → Document Id} :
    (db.updateDocument documentId f).jobs = db.jobs := rfl

@[simp] theorem Database.chunks_updateJob {f : Job Id → Job Id} :
    (db.updateJob jobId f).chunks = db.chunks := rfl

@[simp] theorem Database.chunks_updateDocument {f : Document Id → Document Id} :
    (db.updateDocument documentId f).chunks = db.chunks := rfl

namespace Services

/-- What the worker does for a document that it finds. -/
theorem processOneJob_eq (services : Services Id V C P)
    (hdoc : db.documents job.documentId = some doc) (hjob : db.jobs jobId = some row) :
    (∃ e, (services.processOneJob jobId job db).documents job.documentId =
          some { doc with status := .failed, error := some e } ∧
        (services.processOneJob jobId job db).jobs jobId =
          some { row with status := .failed, attempts := row.attempts + 1, error := some e } ∧
        (services.processOneJob jobId job db).chunks = db.chunks ∧ services.Fails job.kbId doc) ∨
      ∃ newChunks vectors usageMode,
        services.prepare job.kbId doc = .ok (newChunks, vectors, usageMode) ∧
        ¬ services.Fails job.kbId doc ∧
        (services.processOneJob jobId job db).documents job.documentId =
          some { doc with status := .ready, error := none, usageMode := usageMode } ∧
        (services.processOneJob jobId job db).jobs jobId =
          some { row with status := .succeeded, attempts := row.attempts + 1 } ∧
        (services.processOneJob jobId job db).chunks =
          db.chunks.filter (·.documentId ≠ job.documentId) ++
            rows job.documentId job.kbId { doc with status := .processing } newChunks vectors := by
  have hread : services.prepare job.kbId { doc with status := .processing } =
    services.prepare job.kbId doc := rfl
  rw [processOneJob]
  rcases hfetch : services.fetchDocument with e | ⟨⟨⟩⟩
  · refine .inl ⟨.raised e, ?_⟩
    simp [ingest, hfetch, Except.mapError, bind, Except.bind, hdoc, hjob, Fails]
  rcases hprepare : services.prepare job.kbId doc with e | ⟨newChunks, vectors, usageMode⟩
  · refine .inl ⟨e, ?_⟩
    simp [ingest, hfetch, Except.mapError, bind, Except.bind, hdoc, hjob, Fails, hread, hprepare]
  rcases hcommit : services.commit with e | ⟨⟨⟩⟩
  · refine .inl ⟨.raised e, ?_⟩
    simp [ingest, hfetch, Except.mapError, bind, Except.bind, hdoc, hjob, Fails, hread, hprepare,
      hcommit]
  · refine .inr ⟨newChunks, vectors, usageMode, rfl, ?_⟩
    simp [ingest, hfetch, Except.mapError, bind, Except.bind, pure, Except.pure, hdoc, hjob, Fails,
      hread, hprepare, hcommit, newVersion]

/-- The chunks of the document are the new rows, whatever was there. -/
theorem filter_replaced {docRow : Document Id} (rest : List (ChunkRow Id V)) :
    (rest.filter (·.documentId ≠ documentId) ++
        rows documentId kbId docRow newChunks vectors).filter (·.documentId = documentId) =
      rows documentId kbId docRow newChunks vectors := by
  have hrest :
      (rest.filter (·.documentId ≠ documentId)).filter (·.documentId = documentId) = [] := by
    rw [List.filter_eq_nil_iff]
    intro r hr
    simpa using (List.mem_filter.1 hr).2
  have hrows : ∀ r ∈ rows documentId kbId docRow newChunks vectors, r.documentId = documentId := by
    intro r hr
    obtain ⟨i, hi, rfl⟩ := List.mem_mapIdx.1 hr
    rfl
  rw [List.filter_append, hrest, List.nil_append, List.filter_eq_self]
  exact fun r hr => decide_eq_true (hrows r hr)

/-- What is prepared is in the tables once the job is done. -/
theorem ingested_of_prepare_iff (hdoc : db.documents job.documentId = some doc)
    (hjob : db.jobs jobId = some row) (hfails : ¬ services.Fails job.kbId doc)
    (hprepare : services.prepare job.kbId doc = .ok (newChunks, vectors, usageMode)) :
    services.Ingested jobId job doc db (services.processOneJob jobId job db) ↔
      doc.status ≠ .ready ∧ newChunks.length ≤ vectors.length := by
  rcases processOneJob_eq services hdoc hjob with
    ⟨-, -, -, -, hfails'⟩ | ⟨newChunks', vectors', usageMode', hprepare', -, hdoc', hjob', hchunks⟩
  · exact absurd hfails' hfails
  rw [hprepare, Except.ok.injEq, Prod.mk.injEq, Prod.mk.injEq] at hprepare'
  obtain ⟨rfl, rfl, rfl⟩ := hprepare'
  have hrows : (services.processOneJob jobId job db).chunksOf job.documentId =
      rows job.documentId job.kbId { doc with status := .processing } newChunks vectors := by
    rw [Database.chunksOf, hchunks, filter_replaced]
  rw [← complete_rows_iff hprepare, ← hrows]
  constructor
  · rintro ⟨doc', job', hd, hj, ⟨-, -, hcomplete, hversion⟩ | ⟨hfailed, -⟩⟩
    · obtain rfl : _ = doc' := Option.some.inj (hdoc'.symm.trans hd)
      exact ⟨fun hready => absurd (hversion hready) (Int.lt_irrefl _), hcomplete⟩
    · obtain rfl : _ = doc' := Option.some.inj (hdoc'.symm.trans hd)
      cases hfailed
  · rintro ⟨hready, hcomplete⟩
    exact ⟨_, _, hdoc', hjob', .inl ⟨rfl, rfl, hcomplete, fun h => absurd h hready⟩⟩

/-- A job is done as it should be just when it fails, or the document was not ready and there is
a vector for every chunk. -/
theorem ingested_iff (hdoc : db.documents job.documentId = some doc)
    (hjob : db.jobs jobId = some row) :
    services.Ingested jobId job doc db (services.processOneJob jobId job db) ↔
      services.Fails job.kbId doc ∨ doc.status ≠ .ready ∧ services.Enough job.kbId doc := by
  rcases processOneJob_eq services hdoc hjob with
    ⟨e, hdoc', hjob', hchunks, hfails⟩ | ⟨newChunks, vectors, usageMode, hprepare, hfails, -⟩
  · exact iff_of_true ⟨_, _, hdoc', hjob', .inr ⟨rfl, rfl, hchunks⟩⟩ (.inl hfails)
  · have henough : services.Enough job.kbId doc ↔ newChunks.length ≤ vectors.length := by
      refine ⟨fun h => h _ _ _ hprepare, fun h newChunks' vectors' usageMode' hprepare' => ?_⟩
      rw [hprepare, Except.ok.injEq, Prod.mk.injEq, Prod.mk.injEq] at hprepare'
      rwa [← hprepare'.1, ← hprepare'.2.1]
    rw [or_iff_right hfails, henough, ingested_of_prepare_iff hdoc hjob hfails hprepare]

end Services

end

/-! ### A version that stays, and a chunk that is lost -/

namespace Services

/-- A storage with one text, and an embedding that answers with no vector. -/
def storing (text : String) : Services ℕ ℤ Unit Unit where
  fetchDocument := .ok ()
  read _ := .ok text.toUTF8
  fetchEmbeddingConfig _ := .ok ()
  getProvider _ := .ok ()
  embed _ _ := .ok []
  commit := .ok ()

def uploaded (status : DocumentStatus) : Document ℕ where
  tenantId := 0
  sourceRef := "tenant/kb/note.txt"
  contentType := "text/plain"
  language := none
  status := status
  error := none
  version := 1
  usageMode := .auto

def pendingJob : Job ℕ where
  documentId := 0
  kbId := 0
  status := .pending
  error := none
  attempts := 0

def tables (doc : Document ℕ) : Database ℕ ℤ where
  documents i := if i = 0 then some doc else none
  jobs i := if i = 0 then some pendingJob else none
  chunks := []

/-- Text of one word that is not small. -/
def longWord : String := String.ofList (List.replicate 500 'a')

theorem prepare_storing {text : String} {chunks : List Chunk}
    (hsize : autoInlineThresholdBytes ≤ text.utf8ByteSize) (hne : chunks ≠ [])
    (hchunks : chunkText text.toList = chunks) :
    (storing text).prepare 0 (uploaded .pending) = .ok (chunks, [], .auto) := by
  have hdecode : String.fromUTF8? text.toUTF8 = some text := dif_pos text.isValidUTF8
  rw [String.toUTF8_eq_toByteArray] at hdecode
  simp [prepare, storing, uploaded, extractText, bind, Except.bind, Except.mapError, hdecode,
    hsize, hchunks, hne, pure, Except.pure]

theorem prepare_longWord :
    (storing longWord).prepare 0 (uploaded .pending) =
      .ok ([⟨List.replicate 500 'a', 1⟩], [], .auto) := by
  refine prepare_storing (by decide +kernel) (List.cons_ne_nil _ _) ?_
  have hne : List.replicate 500 'a' ≠ [] := mt (List.replicate_eq_nil_iff 'a').1 (by decide)
  have hspace : ∀ c ∈ List.replicate 500 'a', Python.isspace c = false := by
    intro c hc
    rw [List.eq_of_mem_replicate hc]
    decide
  exact (congrArg chunkText String.toList_ofList).trans (chunkText_of_word hne hspace)

theorem not_fails {services : Services ℕ ℤ Unit Unit} {doc : Document ℕ} {kbId : ℕ}
    {prepared : List Chunk × List (Option ℤ) × UsageMode} (hfetch : services.fetchDocument = .ok ())
    (hprepare : services.prepare kbId doc = .ok prepared) (hcommit : services.commit = .ok ()) :
    ¬ services.Fails kbId doc := by
  rw [Fails, hfetch, hprepare, hcommit]
  simp

/-- A document that is ready keeps its version, and one whose text is not small is ready without
the chunk it has. -/
theorem not_ingested :
    ¬ (storing "closed").Ingested 0 pendingJob (uploaded .ready) (tables (uploaded .ready))
        ((storing "closed").processOneJob 0 pendingJob (tables (uploaded .ready))) ∧
      ¬ (storing longWord).Ingested 0 pendingJob (uploaded .pending) (tables (uploaded .pending))
        ((storing longWord).processOneJob 0 pendingJob (tables (uploaded .pending))) := by
  constructor
  · have hprepare : (storing "closed").prepare 0 (uploaded .ready) =
        .ok ([⟨"closed".toList, 1⟩], [none], .prompt) := by decide
    rw [ingested_of_prepare_iff rfl rfl (not_fails rfl hprepare rfl) hprepare]
    exact fun h => h.1 rfl
  · rw [ingested_of_prepare_iff rfl rfl (not_fails rfl prepare_longWord rfl)
      prepare_longWord]
    exact fun h => absurd h.2 (by decide)

/-- A small document that was not ready. -/
theorem ingested_iff_closed :
    (storing "closed").Ingested 0 pendingJob (uploaded .pending) (tables (uploaded .pending))
        ((storing "closed").processOneJob 0 pendingJob (tables (uploaded .pending))) ↔
      (storing "closed").Fails 0 (uploaded .pending) ∨
        (uploaded .pending).status ≠ .ready ∧ (storing "closed").Enough 0 (uploaded .pending) :=
  ingested_iff rfl rfl

end Services

end Yuviz.Knowledge
