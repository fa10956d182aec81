/-
# From the provider to the traversal

A page of a production run: the request that is built for it, the answer that passes the
adapter and the page execution, and the observation that the traversal gets of it.  Three
validators look at the observation, and the last one can end the whole crawl.
-/
import Mathlib
import Erabi.Authoring.DomainScope
import Erabi.Crawl.Rejections
import Erabi.Crawl.Runs
import Erabi.Production.Crawl4Ai
import Erabi.Production.Deadline
import Erabi.Snapshot.Loading

namespace Erabi.Production

open Authoring (Url UrlCrate hasControl eqIgnoreAsciiCase)
open Snapshot (SnapshotOperationalSettings)

/-! ## Requests for pages -/

/-- The evidence that a production page is asked for. -/
def pageEvidence (screenshot : Bool) : CrawlerEvidencePolicy where
  cleanedHtml := true
  renderedHtml := true
  markdown := true
  discoveredLinks := true
  selectorObservations := true
  paginationObservations := true
  screenshot := if screenshot then .viewport else .none

/-- The sample URL is printable. -/
theorem printable_linked : Authoring.Printable "http://a/p" := by
  simp [Authoring.Printable, Authoring.isControl]

/-- The URL of a page with one link. -/
def linkedUrl : Url := ⟨"http://a/p", printable_linked⟩

/-- Its parts. -/
theorem plainParts_linkedUrl : Authoring.plainParts "http://a/p".toList =
    ⟨"http".toList, "a".toList, "/p".toList, none, none⟩ := by
  simp [Authoring.plainParts, Authoring.splitOnce]

/-- It is parsed. -/
theorem parse_linkedUrl : Authoring.plainUrlCrate.parse "http://a/p" = some linkedUrl := by
  simp only [Authoring.plainUrlCrate, plainParts_linkedUrl]
  rw [if_pos (by simp)]
  apply Authoring.plainUrl_eq
  exact String.toList_inj.mp (by simp [Authoring.PlainParts.text, linkedUrl])

/-- A page that the page execution hands on. -/
structure PageResult where
  observation : PageObservation
  status : Option ℕ
  mediaType : Option String
  contentLength : Option ℕ
  elapsedMs : Option ℕ
  artifacts : List CrawlerArtifactEvidence
  completeness : CrawlerResultCompleteness

/-- The media type is that of HTML. -/
def isHtml (mediaType : String) : Bool :=
  (mediaType.toList.splitOn ';').head?.any fun value =>
    eqIgnoreAsciiCase (String.ofList value) "text/html"

/-- The URL that the page was found at. -/
def PageObservation.finalUrlText (observation : PageObservation) : String :=
  observation.finalUrl.getD observation.requestedUrl

/-- The end of `execute_page`.  `admits` is the network policy. -/
def pageResult (crate : UrlCrate) (admits : Url → Bool) (requestedUrl : String)
    (result : CrawlerExecuteResult) : Option PageResult :=
  if result.observation.requestedUrl ≠ requestedUrl then none
  else if ¬ (crate.parse result.observation.finalUrlText).any admits then none
  else some
    { observation := result.observation
      status := result.response.statusCode
      mediaType := result.response.mediaType.map CrawlerMediaType.text
      contentLength := result.response.contentLengthBytes
      elapsedMs := result.response.providerElapsedMs
      artifacts := result.artifacts
      completeness := result.completeness }

/-- `semantic_observation`: only HTML pages have links. -/
def PageResult.semanticObservation (page : PageResult) : PageObservation :=
  if page.mediaType.any isHtml then page.observation
  else { page.observation with discoveredLinks := [], paginationObservations := [] }

/-! ## What the traversal gets -/

section Coding

variable (code : String → Crawl.Text)

/-- The observation as the traversal reads it. -/
def PageObservation.coded (observation : PageObservation) : Crawl.PageObservation where
  requestedUrl := code observation.requestedUrl
  finalUrl := observation.finalUrl.map code
  discoveredLinks := observation.discoveredLinks.map fun link =>
    ⟨code link.rawHref, link.selector.map code⟩
  paginationObservations := observation.paginationObservations.map fun pagination =>
    ⟨pagination.selector.map code, pagination.targetUrl.map code⟩

/-- What the provider of the traversal makes of a page. -/
def PageResult.outcome (page : PageResult) : Crawl.ProviderOutcome :=
  .observed (page.semanticObservation.coded code) (page.contentLength.getD 0)

/-- The texts of the traversal are strings under a coding. -/
structure Reads (crate : UrlCrate) (urls : Crawl.UrlSyntax) : Prop where
  characters (s : String) : urls.characters (code s) = s.length
  hasControl (s : String) : urls.hasControl (code s) = Authoring.hasControl s
  parses (s : String) : urls.parses (code s) = (crate.parse s).isSome

variable {code} {crate : UrlCrate}

/-- The checks on texts agree across the seam. -/
theorem Reads.validateSafeText {urls : Crawl.UrlSyntax} (hreads : Reads code crate urls)
    {s : String} {max : ℕ} : urls.validateSafeText (code s) max = true ↔
      s ≠ "" ∧ s.length ≤ max ∧ Authoring.hasControl s = false := by
  rw [Crawl.UrlSyntax.validateSafeText, hreads.characters, hreads.hasControl]
  simp [and_assoc]

end Coding

/-- The check on a URL text. -/
theorem isUrlText_iff {s : String} : isUrlText s = true ↔
    s.length ≤ Crawl.maxPreviewUrlChars ∧ hasControl s = false := by
  rw [isUrlText, Bool.and_eq_true, decide_eq_true_eq, Bool.not_eq_true']
  rfl

/-- The check on a selector text. -/
theorem isSelectorText_iff {s : String} : isSelectorText s = true ↔
    s ≠ "" ∧ s.length ≤ Crawl.maxSelectorChars ∧ hasControl s = false := by
  rw [isSelectorText, Bool.and_eq_true, Bool.and_eq_true, decide_eq_true_eq, decide_eq_true_eq,
    Bool.not_eq_true', and_assoc]
  rfl

section Step

variable {crate : UrlCrate} {request : CrawlerExecuteRequest} {result : CrawlerExecuteResult}
  {requestedUrl : String} {admits : Url → Bool} {page : PageResult} {code : String → Crawl.Text}
  {ctx : Crawl.TraversalContext}

/-- What a page result takes over from the provider's. -/
theorem pageResult_eq_some (h : pageResult crate admits requestedUrl result = some page) :
    page.observation = result.observation ∧
      page.mediaType = result.response.mediaType.map CrawlerMediaType.text ∧
      page.contentLength = result.response.contentLengthBytes ∧
      result.observation.requestedUrl = requestedUrl ∧
      (crate.parse result.observation.finalUrlText).isSome = true := by
  unfold pageResult at h
  split_ifs at h with hrequested hadmitted
  cases h
  exact ⟨rfl, rfl, rfl, not_not.mp hrequested, Option.isSome_of_any hadmitted⟩

/-- The page execution takes links away, and nothing else that the traversal reads. -/
theorem semanticObservation_spec (page : PageResult) :
    page.semanticObservation.requestedUrl = page.observation.requestedUrl ∧
      page.semanticObservation.finalUrl = page.observation.finalUrl ∧
      page.semanticObservation.discoveredLinks =
        if page.mediaType.any isHtml then page.observation.discoveredLinks else [] := by
  unfold PageResult.semanticObservation
  split <;> exact ⟨rfl, rfl, rfl⟩

/-- No link is added at the seam. -/
theorem mem_discoveredLinks_of_semanticObservation {link : ObservedLink}
    (h : link ∈ page.semanticObservation.discoveredLinks) :
    link ∈ page.observation.discoveredLinks := by
  rw [(semanticObservation_spec page).2.2] at h
  split_ifs at h with hhtml
  · exact h
  · cases h

/-- What the contract of the adapters admits the traversal accepts too, up to empty hrefs. -/
theorem validateObservation_coded (hreads : Reads code crate ctx.urls)
    (hadmissible : page.observation.Admissible crate request) :
    Crawl.validateObservation ctx (page.semanticObservation.coded code) = true ↔
      ∀ link ∈ page.semanticObservation.discoveredLinks, link.rawHref ≠ "" := by
  have hvalid := hadmissible.valid
  simp only [PageObservation.validateForAdapter, Bool.and_eq_true, decide_eq_true_eq] at hvalid
  obtain ⟨⟨⟨⟨⟨⟨⟨⟨hrequested, hrequestedText⟩, -⟩, -⟩, -⟩, hfinal⟩, hlinks⟩, -⟩, -⟩ := hvalid
  obtain ⟨hrequestedUrl, hfinalUrl, -⟩ := semanticObservation_spec page
  have hrequestedSafe : ctx.urls.validateSafeText (code page.observation.requestedUrl)
      Crawl.maxPreviewUrlChars = true :=
    hreads.validateSafeText.mpr ⟨hrequested, isUrlText_iff.mp hrequestedText⟩
  have hfinalSafe : (page.observation.finalUrl.map code).all
      (ctx.urls.validateSafeText · Crawl.maxPreviewUrlChars) = true := by
    rcases hurl : page.observation.finalUrl with _ | finalUrl
    · rfl
    · rw [hurl, Option.all_some, Bool.and_eq_true, decide_eq_true_eq] at hfinal
      exact hreads.validateSafeText.mpr ⟨hfinal.1, isUrlText_iff.mp hfinal.2⟩
  -- The adapter has looked at the length and the characters of every link.
  have hlinkText : ∀ link ∈ page.semanticObservation.discoveredLinks,
      isUrlText link.rawHref = true ∧ link.selector.all isSelectorText = true := by
    intro link hlink
    have h := List.all_eq_true.mp hlinks link (mem_discoveredLinks_of_semanticObservation hlink)
    rwa [Bool.and_eq_true] at h
  have hselector : ∀ link ∈ page.semanticObservation.discoveredLinks,
      (link.selector.map code).all (ctx.urls.validateSafeText · Crawl.maxSelectorChars) = true := by
    intro link hlink
    have h := (hlinkText link hlink).2
    rcases hselected : link.selector with _ | selector
    · rfl
    · rw [hselected, Option.all_some, isSelectorText_iff] at h
      exact hreads.validateSafeText.mpr h
  rw [Crawl.validateObservation, PageObservation.coded, hrequestedUrl, hfinalUrl, hrequestedSafe,
    hfinalSafe, Bool.true_and, Bool.true_and]
  simp only [List.all_map, List.all_eq_true, Function.comp_apply, Bool.and_eq_true,
    hreads.validateSafeText]
  constructor
  · exact fun h link hlink => (h link hlink).1.1
  · exact fun h link hlink =>
      ⟨⟨h link hlink, isUrlText_iff.mp (hlinkText link hlink).1⟩, hselector link hlink⟩

/-- An admissible page brings no more links than the traversal takes. -/
theorem length_semanticObservation (hadmissible : page.observation.Admissible crate request) :
    page.semanticObservation.discoveredLinks.length ≤ Crawl.maxPreviewLinksPerObservation := by
  have hvalid := hadmissible.valid
  simp only [PageObservation.validateForAdapter, Bool.and_eq_true, decide_eq_true_eq] at hvalid
  have hlength : page.observation.discoveredLinks.length ≤ maxCrawlerDiscoveredLinks :=
    hvalid.1.1.1.1.1.1.2
  rw [(semanticObservation_spec page).2.2]
  split
  · exact hlength
  · exact Nat.zero_le _

/-- A result that the contract of the adapters and the page execution have accepted is
rejected by the traversal exactly if a link of an HTML page has an empty href, if the
announced length exceeds the bytes that are left, or if the final URL has no canonical form. -/
theorem step_rejects_page_iff {observation : PageObservation}
    {response : CrawlerResponseMetadata} {artifacts : List CrawlerArtifactEvidence}
    {providerReportedPartial : Bool} {s : Crawl.SemanticTraversal} {entry : Crawl.QueueEntry}
    {rest : List Crawl.QueueEntry} {readings : Crawl.ClockReadings}
    (hreads : Reads code crate ctx.urls)
    (hresult : CrawlerExecuteResult.tryNew crate request observation response artifacts
      providerReportedPartial = .ok result)
    (hpage : pageResult crate admits requestedUrl result = some page)
    (hqueue : s.queue = entry :: rest) (hentry : entry.requestedUrl = code requestedUrl)
    (htime : readings.atStart < ctx.limits.maxDurationMs)
    (hbytes : s.consumedBytes < ctx.limits.maxDownloadedBytes) :
    Crawl.Rejects (Crawl.step ctx readings (page.outcome code) s) ↔
      (∃ link ∈ page.semanticObservation.discoveredLinks, link.rawHref = "") ∨
        ctx.limits.maxDownloadedBytes - s.consumedBytes < page.contentLength.getD 0 ∨
        ctx.canonicalize (code page.observation.finalUrlText) = none := by
  obtain ⟨hmade, -, hadmissible⟩ := CrawlerExecuteResult.tryNew_eq_ok hresult
  obtain ⟨hobservation, -, -, hrequested, hparses⟩ := pageResult_eq_some hpage
  rw [← hmade, ← hobservation] at hadmissible
  rw [← hobservation] at hrequested hparses
  obtain ⟨hrequestedUrl, hfinalUrl, -⟩ := semanticObservation_spec page
  -- the crawler and the traversal read the final URL in the same way
  have hfinal : (page.semanticObservation.coded code).finalOriginal =
      code page.observation.finalUrlText := by
    rw [Crawl.PageObservation.finalOriginal, PageObservation.coded, hfinalUrl, hrequestedUrl,
      PageObservation.finalUrlText, Option.getD_map]
  have hbase : (page.semanticObservation.coded code).finalUrl.getD entry.requestedUrl =
      (page.semanticObservation.coded code).finalOriginal := by
    rw [hentry, ← hrequested, ← hrequestedUrl]
    rfl
  have hsafe : ctx.urls.parses
      ((page.semanticObservation.coded code).finalUrl.getD entry.requestedUrl) = true := by
    rw [hbase, hfinal, hreads.parses]
    exact hparses
  rw [PageResult.outcome, Crawl.step_rejects_iff hqueue htime hbytes hsafe]
  -- of the texts the traversal checks, only an empty href has passed the provider's own checks
  have htexts := validateObservation_coded hreads hadmissible
  constructor
  · intro h
    by_contra hnot
    simp only [not_or, not_exists, not_and, not_lt] at hnot
    obtain ⟨hlinks, hsize, hcanonical⟩ := hnot
    refine h ⟨by rw [hentry, ← hrequested, ← hrequestedUrl]; rfl, hsize, ?_,
      htexts.mpr hlinks, ?_⟩
    · rw [PageObservation.coded, List.length_map]
      exact length_semanticObservation hadmissible
    · rw [hfinal]
      exact Option.isSome_iff_ne_none.mpr hcanonical
  · rintro (⟨link, hlink, hempty⟩ | hsize | hcanonical) h
    · exact htexts.mp h.texts link hlink hempty
    · exact absurd h.bytes (not_le.mpr hsize)
    · have hsome := h.canonical
      rw [hfinal, hcanonical] at hsome
      cases hsome

end Step

/-! ### A page with a link that has no href -/

/-- Texts as the numbers of their characters. -/
def codeOf (s : String) : Crawl.Text := Encodable.encode (s.toList.map Char.toNat)

/-- The text of a code. -/
def textOf (n : Crawl.Text) : String :=
  String.ofList (((Encodable.decode n : Option (List ℕ)).getD []).map Char.ofNat)

/-- Codes are read back. -/
theorem textOf_codeOf (s : String) : textOf (codeOf s) = s := by
  have hchars : (Char.ofNat ∘ Char.toNat : Char → Char) = id := funext Char.ofNat_toNat
  rw [textOf, codeOf, Encodable.encodek, Option.getD_some, List.map_map, hchars, List.map_id,
    String.ofList_toList]

/-- A site whose texts are those of plain URLs. -/
def codedContext : Crawl.TraversalContext :=
  { Crawl.roomyContext with
    urls :=
      { characters := fun n => (textOf n).length
        hasControl := fun n => hasControl (textOf n)
        parses := fun n => (Authoring.plainUrlCrate.parse (textOf n)).isSome
        hasFragment := fun _ => false
        isCrawlTarget := fun _ => true
        withoutFragment := id
        join := fun _ _ => none }
    canonicalStorable := fun _ _ _ _ h => by cases h }

/-- The codes of texts are read as the crate reads them. -/
theorem reads_codeOf : Reads codeOf Authoring.plainUrlCrate codedContext.urls where
  characters s := congrArg String.length (textOf_codeOf s)
  hasControl s := congrArg Authoring.hasControl (textOf_codeOf s)
  parses s := congrArg (fun text => (Authoring.plainUrlCrate.parse text).isSome) (textOf_codeOf s)

/-- A page with a link without a reference. -/
def unlinkedObservation : PageObservation where
  requestedUrl := "http://a/p"
  finalUrl := none
  artifactIds := []
  discoveredLinks := [⟨"", none⟩]
  selectorObservations := []
  paginationObservations := []

/-- The provider's result for it. -/
def unlinkedResult : CrawlerExecuteResult where
  observation := unlinkedObservation
  response := ⟨some 200, some ⟨"text/html"⟩, some 10, none⟩
  artifacts := []
  completeness := .requestedEvidenceUnavailable

/-- The page result for it. -/
def unlinkedPage : PageResult where
  observation := unlinkedObservation
  status := some 200
  mediaType := some "text/html"
  contentLength := some 10
  elapsedMs := none
  artifacts := []
  completeness := .requestedEvidenceUnavailable

/-- The unit that asks for the sample URL. -/
def linkedEntry : Crawl.QueueEntry where
  requestedUrl := codeOf "http://a/p"
  canonicalUrl := codeOf "http://a/p"
  depth := 0
  seedIds := [10]
  targetPageTypeId := none
  transitionId := none
  parentCanonicalUrl := none
  pagination := false
  order := 0

/-- A traversal with that unit alone. -/
def linkedTraversal : Crawl.SemanticTraversal :=
  { Crawl.SemanticTraversal.new codedContext with
    queued := ⟨[linkedEntry], List.nodup_singleton _⟩ }

/-- The traversal blames the provider for that page. -/
theorem step_rejects_unlinkedPage :
    Crawl.Rejects (Crawl.step codedContext .zero (unlinkedPage.outcome codeOf)
      linkedTraversal) := by
  have hresult : CrawlerExecuteResult.tryNew Authoring.plainUrlCrate
      ⟨linkedUrl, 1000, "erabi", .renderedHtml, none, none, pageEvidence false⟩
      unlinkedObservation unlinkedResult.response [] false = .ok unlinkedResult := by
    decide +kernel
  have hpage : pageResult Authoring.plainUrlCrate (fun _ => true) "http://a/p" unlinkedResult =
      some unlinkedPage := by
    have hparse : Authoring.plainUrlCrate.parse unlinkedResult.observation.finalUrlText =
        some linkedUrl := parse_linkedUrl
    have hsame : ¬ unlinkedResult.observation.requestedUrl ≠ "http://a/p" := not_not.mpr rfl
    rw [pageResult, if_neg hsame, hparse]
    rfl
  have hqueue : linkedTraversal.queue = [linkedEntry] := rfl
  refine (step_rejects_page_iff reads_codeOf hresult hpage hqueue rfl (by decide)
    (by decide)).mpr (Or.inl ⟨⟨"", none⟩, ?_, rfl⟩)
  decide +kernel

end Erabi.Production
