import PullGate.Client.Address
import PullGate.Client.Exchange
import PullGate.Client.Fault
import PullGate.Client.Replies
import PullGate.Json.Read
import PullGate.Program
import PullGate.Text.Base64
import PullGate.Text.Percent
/-!
# Calls

Each effect as a conversation with the host of one repository. Listings are read page by page up to
the first page that is not full; `pages` ends because page numbers do.
-/

namespace PullGate.Client

open PullGate.Json (Shape Value)

/-- A conversation that may fail. -/
abbrev Call (α : Type) := Exchange (Except Fault α)

/-- The conversation with another result if it does not fail. -/
def Call.mapOk {α β : Type} (f : α → β) (c : Call α) : Call β := c.map fun r => r.map f

/-! ## Replies -/

/-- What a reply says: its body if it is a success, and otherwise why the host refused. -/
def Reply.read {α : Type} (reply : Reply) (body : List UInt8 → Except Fault α) : Except Fault α :=
  if 200 ≤ reply.status && reply.status < 300 then body reply.body
  else match refusal.ofBytes reply.body with
    | .ok _ => .error (.refused reply.status)
    | .error e => .error (.unread e)

/-- A body of a shape. Nothing is said about what follows it. -/
def bodyOf {α : Type} (s : Shape α) (bytes : List UInt8) : Except Fault α :=
  (s.ofFront bytes).mapError .misshapen

/-- Blanks, which may stand anywhere in encoded contents. -/
def isFiller (b : UInt8) : Bool := [0x20, 0x0a, 0x09, 0x0d, 0x0b, 0x0c].contains b

/-- The text of encoded contents. What is not encoded rightly has no text. -/
def decodedText (encoded : String) : String :=
  match Text.Base64.decode? ((Text.Utf8.ofString encoded).filter fun b => !isFiller b) with
  | some bytes => String.ofList (Text.Utf8.decodeLossy bytes)
  | none => ""

/-- The text of the first file in a body. A file without contents has none. -/
def contentText (bytes : List UInt8) : Except Fault String :=
  match Shape.any.ofBytes bytes with
  | .error e => .error (.unread e)
  | .ok tree => match contentsOf tree with
    | .error cause => .error (.unread ⟨cause, none, []⟩)
    | .ok (some encoded :: _) => .ok (decodedText encoded)
    | .ok _ => .ok ""

/-! ## Requests -/

/-- Sends one request and reads the reply. -/
def ask {α : Type} (method : Method) (address : String) (body : Option Value)
    (read : List UInt8 → Except Fault α) : Call α :=
  match address? address with
  | none => .done (.error .address)
  | some sent => .send ⟨method, sent, body⟩ fun
    | .error text => .done (.error (.transport text))
    | .ok reply => .done (reply.read read)

/-- How many things are on a full page. -/
def pageSize : Nat := 100

/-- How many pages there can be. -/
def pageLimit : Nat := 4294967295

/-- The part of a query that asks for a page. -/
def pageQuery (page : Nat) : String := s!"per_page={pageSize}&page={page}"

/-- Reads pages from one on, up to the first that is not full, or `left` pages. -/
def pages {ρ : Type} (read : Nat → Call ρ) (size : ρ → Nat) : Nat → Nat → Call (List ρ)
  | _, 0 => .done (.ok [])
  | page, left + 1 => (read page).bind fun
    | .error f => .done (.error f)
    | .ok p =>
      if size p < pageSize then .done (.ok [p])
      else (pages read size (page + 1) left).mapOk (p :: ·)

/-- Reads all pages of a listing. -/
def listing {ρ : Type} (address query : String) (s : Shape ρ) (size : ρ → Nat) : Call (List ρ) :=
  pages (fun page => ask .get (withQuery address (query ++ pageQuery page)) none (bodyOf s)) size 1
    pageLimit

/-! ## Effects -/

section

variable (repository : Repository)

/-- An address in the repository. -/
def inRepository (path : String) : String :=
  "/repos/" ++ repository.owner ++ "/" ++ repository.name ++ path

/-- The number of a pull request in an address. -/
def numberPart (pr : PrNumber) : String := toString pr.value.toNat

/-- The files that a pull request changes. -/
def changedFiles (pr : PrNumber) : Call (List FileChange) :=
  (listing (inRepository repository ("/pulls/" ++ numberPart pr ++ "/files")) "" filesPage
    List.length).mapOk List.flatten

/-- The text of a file. -/
def fileText (path : String) (reference : Commit) : Call String :=
  ask .get
    (withQuery (inRepository repository ("/contents/" ++ path))
      ("ref=" ++ Text.Percent.queryValue reference.name))
    none contentText

/-- What a search asks for: an author's open pull requests in the repository. -/
def searchText (author : String) : String :=
  "is:pr is:open author:" ++ author ++ " repo:" ++ repository.fullName

/-- What the pages of a search found together: the numbers in order, and the total that the last
page names. -/
def joinSearch (ps : List OpenSearch) : OpenSearch where
  total := (ps.getLast?.map (·.total)).getD 0
  numbers := (ps.flatMap (·.numbers)).mergeSort fun a b => a.value ≤ b.value

/-- An author's open pull requests. -/
def openPrs (author : String) : Call OpenSearch :=
  (listing "/search/issues" ("q=" ++ Text.Percent.queryValue (searchText repository author) ++ "&")
    searchPage (·.numbers.length)).mapOk joinSearch

/-- The runs of checks on a commit. -/
def checkRuns (commit : Commit) : Call (List CheckRun) :=
  (listing (inRepository repository ("/commits/" ++ commit.name ++ "/check-runs")) "" runsPage
    List.length).mapOk List.flatten

/-- A list of texts as a value. -/
def textsValue (texts : List String) : Value := .list (texts.map .text)

/-- Writes a comment. -/
def postComment (pr : PrNumber) (body : String) : Call Unit :=
  ask .post (inRepository repository ("/issues/" ++ numberPart pr ++ "/comments"))
    (some (.object [("body", .text body)])) (bodyOf comment)

/-- Adds labels. -/
def addLabels (pr : PrNumber) (labels : List Label) : Call Unit :=
  (ask .post (inRepository repository ("/issues/" ++ numberPart pr ++ "/labels"))
    (some (.object [("labels", textsValue (labels.map (·.name)))])) (bodyOf (.list label))).mapOk
    fun _ => ()

/-- Removes a label. A label that is not there counts as removed. -/
def removeLabel (pr : PrNumber) (l : Label) : Call Unit :=
  (ask .delete
    (inRepository repository
      ("/issues/" ++ numberPart pr ++ "/labels/" ++ Text.Percent.pathPart l.name))
    none (bodyOf .any)).map fun
    | .ok _ => .ok ()
    | .error f => if f.isNotFound then .ok () else .error f

/-- Closes a pull request. -/
def closePr (pr : PrNumber) : Call Unit :=
  (ask .patch (inRepository repository ("/pulls/" ++ numberPart pr))
    (some (.object [("state", .text "closed")])) (bodyOf .any)).mapOk fun _ => ()

/-- Takes back requests for reviews. -/
def unassignReviewers (pr : PrNumber) (reviewers : List String) : Call Unit :=
  (ask .delete (inRepository repository ("/pulls/" ++ numberPart pr ++ "/requested_reviewers"))
    (some (.object [("reviewers", textsValue reviewers)])) (bodyOf .any)).mapOk
    fun _ => ()

/-- What an effect asks of the host, and what it is answered. -/
def call : Effect → Call Response
  | .listChangedFiles pr => (changedFiles repository pr).mapOk .changedFiles
  | .getFileContent path reference => (fileText repository path reference).mapOk .fileContent
  | .searchOpenPrs author => (openPrs repository author).mapOk .openPrs
  | .listCheckRuns commit => (checkRuns repository commit).mapOk .checkRuns
  | .postComment pr body => (postComment repository pr body).mapOk fun () => .commentPosted
  | .addLabels pr labels => (addLabels repository pr labels).mapOk fun () => .labelsAdded
  | .removeLabel pr l => (removeLabel repository pr l).mapOk fun () => .labelRemoved
  | .closePr pr => (closePr repository pr).mapOk fun () => .prClosed
  | .unassignReviewers pr reviewers =>
    (unassignReviewers repository pr reviewers).mapOk fun () => .reviewersUnassigned

/-- How a client of the repository is shown. -/
def described : String :=
  "OctocrabClient \x7b repo: RepoId \x7b owner: " ++ Text.quoted repository.owner ++ ", repo: " ++
    Text.quoted repository.name ++ " \x7d, .. \x7d"

/-- A host that answers effects by calls. -/
def host {τ : Type} (transport : Transport τ) : Host τ where
  answer t e :=
    let ((_, result), t) := (call repository e).run transport t
    (result.mapError Fault.render, t)

end

end PullGate.Client
