import PageReply.Http.Message
import PageReply.Proofs.Answer.Reference
import PageReply.Proofs.Http.Redirect
import PageReply.Proofs.Store.Retention
import PageReply.Proofs.Url

/-!
# The request that follows a redirect

A page that is rendered into the buffer is kept under its own URL, and the client is sent to the
URL it reads from the redirect. The two are the same URL unless the text of the page's URL has a
blank at one of its ends or still ends with a question mark. For such a page the client asks for
another one, and the response stays where it is until it expires or has to make room.
-/

namespace PageReply

open Exchange

variable {σ τ : Type} [Live τ]

/-- A render that touches neither the session of the request nor its live response. -/
def Renderer.Discreet (render : Renderer σ) : Prop :=
  ∀ url x, ((render url).run x).2.request.session = x.request.session ∧
    ((render url).run x).2.live = x.live

/-- A request made because a redirect, after which the exchange was `y`, named a location: by the
same session, in time, and with the store as it was left. -/
structure Follows (y : Exchange Message) (location : Bytes) (next : Exchange τ) : Prop where
  store : next.store = y.store
  session : next.request.session = y.request.session
  target : next.request.target = .ofBytes location
  later : y.now ≤ next.now
  intime : next.now - y.now < y.store.limits.span

namespace Store

variable (s : Store) (now : Int) (session : Bytes) (url : Url) (response : Response)

theorem take_insert_same {later : Int} (hfits : s.limits.Fits) (hlater : now ≤ later)
    (hage : later - now < s.limits.span) :
    ((s.insert now session url response).take later session url).1 = .hit response :=
  (Waiting.of_insert s now session url response).lookup
    (Entry.not_expired_of_le hfits hlater hage)

theorem mem_take_insert_of_ne {url' : Url} (hurl : url' ≠ url) (later : Int) :
    ⟨key session url, response, now⟩ ∈
      ((s.insert now session url response).take later session url').2.entries := by
  refine List.mem_filter.2 ⟨List.mem_append_right _ (List.mem_singleton_self _), ?_⟩
  have hkey : key session url ≠ key session url' := fun hkey => hurl (key_inj hkey).2.symm
  simpa using hkey

end Store

section

variable {h : Handler} {render : Renderer Message} {x y : Exchange Message} {ajax : Bool}

/-- What a buffered redirect leaves when the page is rendered discreetly. -/
theorem bufferedRedirect_inv (hdiscreet : render.Discreet) (hfresh : x.live = { ajax })
    (hrun : (h.answer render).run x = (.ok .bufferedRedirect, y)) :
    ∃ response after,
      Renders render x.request.target
        { x with store := (x.store.take x.now x.request.session x.request.target).2 }
        (some response) after ∧
      y.store = after.store.insert y.now x.request.session x.request.target response ∧
      y.request.session = x.request.session ∧
      Message.redirect { ajax } x.request.target.text h.config.val.redirectStatus = .ok y.live := by
  obtain ⟨found, store, htake, ⟨response, -, houtcome, -⟩ | ⟨-, hdecided⟩⟩ := answer_inv hrun
  · cases houtcome
  · rw [htake]
    cases hdecided with
    | @bufferedRedirect response z w log here norule rendered differ sent =>
      obtain ⟨log', hrender⟩ := rendered
      obtain ⟨hsession, hlive⟩ := hdiscreet x.request.target { x with store, log := log' }
      rw [hrender] at hsession hlive
      obtain ⟨hperform, hleft⟩ := sent
      have hnow : w.now = z.now := by rw [hleft]
      have hrequest : w.request = z.request := by rw [hleft]
      refine ⟨response, z, ⟨log', hrender⟩, ?_, ?_, ?_⟩
      · rw [hsession, hnow]
      · rw [hrequest, hsession]
      · have haccept := Message.accept_of_performAll hperform
        rwa [hlive, hfresh] at haccept

end

/-- Nothing is sent from the store when it has nothing for the page. -/
theorem answer_ne_bufferedWrite (h : Handler) (render : Renderer τ) {x : Exchange τ}
    (hnone : ∀ e ∈ x.store.entries, e.key ≠ Store.key x.request.session x.request.target)
    (y : Exchange τ) : (h.answer render).run x ≠ (.ok .bufferedWrite, y) := by
  intro hrun
  obtain ⟨found, store, htake, ⟨response, rfl, -, -⟩ | ⟨-, hdecided⟩⟩ := answer_inv hrun
  · obtain ⟨e, he, hkey, -⟩ := Store.exists_mem_of_take htake
    exact hnone e he hkey
  · cases hdecided

section

variable {h : Handler} {render : Renderer Message} {x y : Exchange Message} {ajax : Bool}

/-- **The request that follows a redirect gets the page that was rendered for it when the URL of the
page comes back from the redirect**, which depends on its text alone, and the timeout is one that 64
bits can tell. When the URL does not come back, the page stays in the store, and the request gets no
buffered page, unless there happens to be one for the URL it asks for. -/
theorem follow_up_found (hdiscreet : render.Discreet) (hfresh : x.live = { ajax })
    (hrun : (h.answer render).run x = (.ok .bufferedRedirect, y)) :
    ∃ response after location,
      Renders render x.request.target
        { x with store := (x.store.take x.now x.request.session x.request.target).2 }
        (some response) after ∧
      y.live.header? y.live.locationName = some location ∧
      (Url.ofBytes location = x.request.target ↔
        x.request.target.text.Trimmed ∧
          x.request.target.text.getLast? ≠ some Byte.question) ∧
      ∀ (τ : Type) [Live τ] (h' : Handler) (render' : Renderer τ) (next : Exchange τ),
        Follows y location next →
        (Url.ofBytes location = x.request.target → y.store.limits.Fits →
          ∀ live, Live.performAll (replay response) next.live = (.ok (), live) →
            ∃ z, (h'.answer render').run next = (.ok .bufferedWrite, z) ∧ z.live = live) ∧
        (Url.ofBytes location ≠ x.request.target →
          ⟨Store.key x.request.session x.request.target, response, y.now⟩ ∈
            (next.store.take next.now next.request.session next.request.target).2.entries ∧
          ((∀ e ∈ y.store.entries,
              e.key ≠ Store.key next.request.session (Url.ofBytes location)) →
            ∀ z, (h'.answer render').run next ≠ (.ok .bufferedWrite, z))) := by
  obtain ⟨response, after, hrendered, hstore, hsession, hredirect⟩ :=
    bufferedRedirect_inv hdiscreet hfresh hrun
  refine ⟨response, after, x.request.target.text.trim, hrendered,
    Message.header?_locationName hredirect rfl, x.request.target.ofBytes_trim_eq_iff, ?_⟩
  intro τ _ h' render' next hnext
  constructor
  · intro hsame hfits live hsend
    have hage := hnext.intime
    rw [hstore] at hfits hage
    have htake : (next.store.take next.now next.request.session next.request.target).1 =
        .hit response := by
      rw [hnext.store, hnext.session, hnext.target, hsame, hstore, hsession]
      exact Store.take_insert_same _ _ _ _ _ hfits hnext.later hage
    exact ⟨_, h'.run_answer_of_hit render' next (Prod.ext htake rfl) hsend, rfl⟩
  · intro hdiffer
    constructor
    · rw [hnext.store, hnext.session, hnext.target, hstore, hsession]
      exact Store.mem_take_insert_of_ne _ _ _ _ _ hdiffer _
    · intro hnone
      rw [← hnext.store, ← hnext.target] at hnone
      exact answer_ne_bufferedWrite h' render' hnone

end

namespace Trip

def render : Renderer Message := fun _ => return some { body := ascii "text" }

theorem render_discreet : render.Discreet :=
  fun _ _ => ⟨rfl, rfl⟩

/-- A form is sent that leads to a page. -/
def first (url : Bytes) : Exchange Message where
  store := .tiny
  clock := {}
  request := { current := .ofBytes (ascii "form"), target := .ofBytes url, session := ascii "s1" }
  live := {}

/-- What the form leaves. -/
def redirected (url : Bytes) : Exchange Message :=
  ((Handler.plain.answer render).run (first url)).2

/-- A request for the URL that the redirect names. -/
def second (url : Bytes) : Exchange Message where
  store := (redirected url).store
  clock := Clock.advance {} 999999
  request :=
    let told := .ofBytes (((redirected url).live.header? (ascii "Location")).getD [])
    { current := told, target := told, session := ascii "s1" }
  live := {}

theorem run_first {url : Bytes} {outcome : Outcome}
    (houtcome : ((Handler.plain.answer render).run (first url)).1 = .ok outcome) :
    (Handler.plain.answer render).run (first url) = (.ok outcome, redirected url) :=
  Prod.ext houtcome rfl

theorem second_follows {url location : Bytes}
    (hlocation : (redirected url).live.header? (ascii "Location") = some location)
    (hsession : (redirected url).request.session = ascii "s1")
    (hlater : (redirected url).now ≤ (second url).now)
    (hage : (second url).now - (redirected url).now < (redirected url).store.limits.span) :
    Follows (redirected url) location (second url) where
  store := rfl
  session := hsession.symm
  later := hlater
  target := by
    simp only [second, hlocation]
    rfl
  intime := hage

end Trip

theorem follow_up_found_page :
    ∃ z, (Handler.plain.answer Trip.render).run (Trip.second (ascii "page?n=1")) =
        (.ok .bufferedWrite, z) ∧
      z.live.body = ascii "text" := by
  have hrun : (Handler.plain.answer Trip.render).run (Trip.first (ascii "page?n=1")) =
      (.ok .bufferedRedirect, Trip.redirected (ascii "page?n=1")) :=
    Trip.run_first (by decide +kernel)
  have hfresh : (Trip.first (ascii "page?n=1")).live = { ajax := false } := rfl
  obtain ⟨response, after, location, ⟨log, hrender⟩, hlocation, hback, hnext⟩ :=
    follow_up_found Trip.render_discreet hfresh hrun
  cases hrender
  have htold : (Trip.redirected (ascii "page?n=1")).live.header? (ascii "Location") =
      some (ascii "page?n=1") := by
    decide +kernel
  have hname : (Trip.redirected (ascii "page?n=1")).live.locationName = ascii "Location" := by
    decide +kernel
  rw [hname, htold] at hlocation
  cases hlocation
  have hfollows := Trip.second_follows htold (by decide +kernel) (by decide +kernel)
    (by decide +kernel)
  have hsame : Url.ofBytes (ascii "page?n=1") = (Trip.first (ascii "page?n=1")).request.target :=
    rfl
  obtain ⟨z, hfound, hlive⟩ :=
    (hnext Message Handler.plain Trip.render _ hfollows).1 hsame
    (by decide +kernel) _ rfl
  exact ⟨z, hfound, by rw [hlive]; rfl⟩

/-- A page whose URL still ends with a question mark is not found: the client gets a page that is
rendered a second time, for another URL. -/
theorem follow_up_lost :
    (Trip.redirected (ascii "page??")).live.header? (ascii "Location") = some (ascii "page?") ∧
    (Trip.redirected (ascii "page??")).store.size = 1 ∧
    ((Handler.plain.answer Trip.render).run (Trip.second (ascii "page??"))).1 = .ok .written ∧
    ((Handler.plain.answer Trip.render).run (Trip.second (ascii "page??"))).2.store.size = 1 := by
  decide +kernel

end PageReply
