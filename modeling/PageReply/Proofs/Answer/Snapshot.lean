import PageReply.Proofs.Answer.Reference
import PageReply.Proofs.Answer.Renders

/-!
# The facts are a snapshot

What is known of a request is read before its page is rendered, all but the session that a page is
put in for. So whatever a render makes of the request, at whatever points, the answer is the same:
the same calls, the same outcome or fault, the same store. Only the session under which a page is
buffered is the one that the render leaves.

This compares two answers to the same request. `Amends` compares two pieces of work, one of which
changes the request where the other does not, and is built up the way the work is.
-/

namespace PageReply

variable {σ α β : Type}

namespace Exchange

/-- Nothing differs but what is known of the request. -/
def Alike (x y : Exchange σ) : Prop :=
  ∃ request, y = { x with request }

theorem Alike.refl (x : Exchange σ) : x.Alike x :=
  ⟨x.request, rfl⟩

/-- The exchange after a page is put in for the session that is there. -/
def keep (x : Exchange σ) (url : Url) (response : Response) : Exchange σ :=
  { x with
    store := x.store.insert x.now x.request.session url response
    log := x.log ++ x.store.insertEvents x.now (Store.key x.request.session url) }

theorem Alike.keep {x y : Exchange σ} (h : x.Alike y)
    (hsession : y.request.session = x.request.session) (url : Url) (response : Response) :
    (x.keep url response).Alike (y.keep url response) := by
  obtain ⟨request, rfl⟩ := h
  simp only at hsession
  refine ⟨request, ?_⟩
  simp only [Exchange.keep, hsession]

/-- Changes what is known of the request. -/
def amend (f : Request → Request) : ExchangeM σ Unit :=
  modify fun x => { x with request := f x.request }

@[simp] theorem run_amend (x : Exchange σ) (f : Request → Request) :
    (amend f).run x = (.ok (), { x with request := f x.request }) := rfl

end Exchange

open Exchange

/-! ## Work that changes the request -/

/-- Work that neither asks for what is known of the request nor changes it. -/
def Blind (work : ExchangeM σ α) : Prop :=
  ∀ x request,
    work.run { x with request } = ((work.run x).1, { (work.run x).2 with request })

/-- Two pieces of work do the same, whatever is known of the request when each of them starts. What
they make of it keeps to a relation. -/
def Amends (R : Request → Request → Prop) (work other : ExchangeM σ α) : Prop :=
  ∀ x y : Exchange σ, x.Alike y → R x.request y.request →
    (other.run y).1 = (work.run x).1 ∧ (work.run x).2.Alike (other.run y).2 ∧
      R (work.run x).2.request (other.run y).2.request

namespace Amends

variable {R : Request → Request → Prop} {work other : ExchangeM σ α}

theorem of_blind (h : Blind work) : Amends R work work := by
  rintro x _ ⟨request, rfl⟩ hR
  have hself := h x x.request
  have hrequest : (work.run x).2.request = x.request := congrArg (·.2.request) hself
  rw [h x request]
  exact ⟨rfl, ⟨request, rfl⟩, by rwa [hrequest]⟩

theorem bind {next more : α → ExchangeM σ β} (first : Amends R work other)
    (rest : ∀ a, Amends R (next a) (more a)) : Amends R (work >>= next) (other >>= more) := by
  intro x y hxy hR
  obtain ⟨hresult, hleft, hR'⟩ := first x y hxy hR
  rw [run_bind, run_bind]
  rcases hwork : work.run x with ⟨result, x'⟩
  rcases hother : other.run y with ⟨result', y'⟩
  rw [hwork, hother] at hresult hleft hR'
  cases hresult
  cases result with
  | error fault => exact ⟨rfl, hleft, hR'⟩
  | ok a => exact rest a x' y' hleft hR'

/-- A change of the request can be put before any work. -/
theorem amend {f : Request → Request} (hf : ∀ r r', R r r' → R r (f r'))
    (h : Amends R work other) : Amends R work (amend f >>= fun _ => other) := by
  rintro x _ ⟨request, rfl⟩ hR
  rw [run_bind, run_amend]
  exact h x _ ⟨f request, rfl⟩ (hf _ _ hR)

end Amends

namespace Renderer

/-- Two renders do the same for the same URL and the same exchange, except for what they make of the
request. -/
def Alike (render other : Renderer σ) : Prop :=
  ∀ url x, ((other url).run x).1 = ((render url).run x).1 ∧
    ((render url).run x).2.Alike ((other url).run x).2

/-- Two renders leave the same session. -/
def SameSession (render other : Renderer σ) : Prop :=
  ∀ url x, ((other url).run x).2.request.session = ((render url).run x).2.request.session

variable {render other : Renderer σ}

theorem alike_of_amends {R : Request → Request → Prop} (hrefl : ∀ r, R r r)
    (h : ∀ url, Amends R (render url) (other url)) : render.Alike other := by
  intro url x
  obtain ⟨hresult, hleft, -⟩ := h url x x (.refl x) (hrefl x.request)
  exact ⟨hresult, hleft⟩

theorem sameSession_of_amends
    (h : ∀ url, Amends (fun r r' => r'.session = r.session) (render url) (other url)) :
    render.SameSession other :=
  fun url x => (h url x x (.refl x) rfl).2.2

end Renderer

/-! ## Two answers -/

/-- Two ends of an answer. They differ in what is known of the request at most, but a page that was
put in for a URL is there for the session of each. -/
inductive Agree (url : Url) :
    Except Fault Outcome × Exchange σ → Except Fault Outcome × Exchange σ → Prop
  | same {result : Except Fault Outcome} {x y : Exchange σ} (alike : x.Alike y)
    (unbuffered : result ≠ .ok .bufferedRedirect) : Agree url (result, x) (result, y)
  | kept {response : Response} {x y : Exchange σ} (alike : x.Alike y) :
    Agree url (.ok .bufferedRedirect, x.keep url response)
      (.ok .bufferedRedirect, y.keep url response)

namespace Agree

variable {url : Url} {p q : Except Fault Outcome × Exchange σ}

theorem result_eq (h : Agree url p q) : q.1 = p.1 := by
  cases h <;> rfl

theorem alike_of_unbuffered (h : Agree url p q) (hresult : p.1 ≠ .ok .bufferedRedirect) :
    p.2.Alike q.2 := by
  cases h with
  | same alike => exact alike
  | kept => exact absurd rfl hresult

theorem exists_keep (h : Agree url p q) (hresult : p.1 = .ok .bufferedRedirect) :
    ∃ (response : Response) (x y : Exchange σ), x.Alike y ∧
      p.2 = x.keep url response ∧ q.2 = y.keep url response := by
  cases h with
  | same _ unbuffered => exact absurd hresult unbuffered
  | @kept response x y alike => exact ⟨response, x, y, alike, rfl, rfl⟩

theorem alike_of_session (h : Agree url p q)
    (hsession : q.2.request.session = p.2.request.session) : p.2.Alike q.2 := by
  cases h with
  | same alike => exact alike
  | kept alike => exact alike.keep hsession _ _

end Agree

theorem Course.page_alike {render other : Renderer σ} (h : render.Alike other) (course : Course)
    (x : Exchange σ) :
    ((course.page other).run x).1 = ((course.page render).run x).1 ∧
      ((course.page render).run x).2.Alike ((course.page other).run x).2 := by
  unfold Course.page
  cases course.url? with
  | none => exact ⟨rfl, .refl x⟩
  | some url => exact h url x

theorem Course.page_sameSession {render other : Renderer σ} (h : render.SameSession other)
    (course : Course) (x : Exchange σ) :
    ((course.page other).run x).2.request.session =
      ((course.page render).run x).2.request.session := by
  unfold Course.page
  cases course.url? with
  | none => rfl
  | some url => exact h url x

namespace Handler

variable [Live σ] (h : Handler) {render other : Renderer σ} (x : Exchange σ)

theorem request_deliver (course : Course) (page : Option Response) :
    (h.deliver course page x).2.request = x.request := by
  unfold deliver
  rcases Live.performAll (course.calls h.config.val.redirectStatus page) x.live with ⟨_ | _, live⟩
  · rfl
  · cases course <;> cases page <;> rfl

/-- A handler itself changes nothing that is known of the request. -/
theorem request_answer :
    ((h.answer render).run x).2.request =
      (((h.course x).page render).run (h.settled x)).2.request := by
  rw [run_answer_eq, pursue]
  rcases ((h.course x).page render).run (h.settled x) with ⟨_ | page, y⟩
  · rfl
  · exact h.request_deliver y (h.course x) page

theorem deliver_agree {x y : Exchange σ} (hxy : x.Alike y) {course : Course} {target : Url}
    (htarget : ∀ url, course = .buffer url → url = target) (page : Option Response) :
    Agree target (h.deliver course page x) (h.deliver course page y) := by
  obtain ⟨request, rfl⟩ := hxy
  unfold deliver
  rcases Live.performAll (course.calls h.config.val.redirectStatus page) x.live with
    ⟨fault | _, live⟩
  · exact .same ⟨request, rfl⟩ nofun
  · cases course with
    | replay response => exact .same ⟨request, rfl⟩ nofun
    | redirect url => exact .same ⟨request, rfl⟩ nofun
    | write url => cases page <;> exact .same ⟨request, rfl⟩ nofun
    | buffer url =>
      obtain rfl := htarget url rfl
      cases page with
      | none => exact .same ⟨request, rfl⟩ nofun
      | some response =>
        exact .kept (x := { x with live }) (y := { x with live, request }) ⟨request, rfl⟩

theorem pursue_agree (halike : render.Alike other) {course : Course} {target : Url}
    (htarget : ∀ url, course = .buffer url → url = target) :
    Agree target (h.pursue render course x) (h.pursue other course x) := by
  obtain ⟨hresult, hleft⟩ := course.page_alike halike x
  rw [pursue, pursue]
  rcases hrender : (course.page render).run x with ⟨result, y⟩
  rcases hother : (course.page other).run x with ⟨result', z⟩
  rw [hrender, hother] at hresult hleft
  cases hresult
  cases result with
  | error fault => exact .same hleft (by simp)
  | ok page => exact h.deliver_agree hleft htarget page

theorem answer_agree (halike : render.Alike other) :
    Agree x.request.target ((h.answer render).run x) ((h.answer other).run x) := by
  rw [run_answer_eq, run_answer_eq]
  exact h.pursue_agree _ halike fun _ => h.eq_target_of_course x

theorem calls_eq_of_alike (halike : render.Alike other) : h.calls other x = h.calls render x := by
  rw [calls_eq, calls_eq, callsOn, callsOn]
  obtain ⟨hresult, hleft⟩ := (h.course x).page_alike halike (h.settled x)
  rcases hrender : ((h.course x).page render).run (h.settled x) with ⟨result, y⟩
  rcases hother : ((h.course x).page other).run (h.settled x) with ⟨result', z⟩
  rw [hrender, hother] at hresult hleft
  cases hresult
  obtain ⟨request, hleft⟩ := hleft
  cases hleft
  cases result <;> rfl

end Handler

/-- **The facts are read once**: of two renders that do the same except for what they make of the
request, both lead to the same outcome or fault, and to the same calls and renders. If both leave
the same session, they leave the same store. If not, all that differs is the session under which a
buffered page is put in. -/
theorem facts_read_once [Live σ] (h : Handler) {render other : Renderer σ}
    (halike : render.Alike other) (x : Exchange σ) :
    ((h.answer other).run x).1 = ((h.answer render).run x).1 ∧
    h.calls other x = h.calls render x ∧
    h.renders other x = h.renders render x ∧
    (render.SameSession other → ((h.answer render).run x).2.Alike ((h.answer other).run x).2) ∧
    (((h.answer render).run x).1 ≠ .ok .bufferedRedirect →
      ((h.answer render).run x).2.Alike ((h.answer other).run x).2) ∧
    (((h.answer render).run x).1 = .ok .bufferedRedirect →
      ∃ (response : Response) (y z : Exchange σ), y.Alike z ∧
        ((h.answer render).run x).2 = y.keep x.request.target response ∧
        ((h.answer other).run x).2 = z.keep x.request.target response) := by
  have hagree := h.answer_agree x halike
  refine ⟨hagree.result_eq, h.calls_eq_of_alike x halike, ?_, ?_, hagree.alike_of_unbuffered,
    hagree.exists_keep⟩
  · rw [Handler.renders_eq, Handler.renders_eq]
  · intro hsame
    apply hagree.alike_of_session
    rw [Handler.request_answer, Handler.request_answer]
    exact Course.page_sameSession hsame (h.course x) (h.settled x)

namespace Meddling

def page : Url := .ofBytes (ascii "page")

def form : Exchange Transcript where
  store := .tiny
  clock := {}
  request := { current := .ofBytes (ascii "form"), target := page, session := ascii "s1" }
  live := {}

def render : Renderer Transcript := fun _ => do
  insert (ascii "s4") page {}
  advance 5
  return some { body := ascii "text" }

/-- The same render, which changes the request before, between and after what it does. -/
def meddling (c : Request.Change) : Renderer Transcript := fun _ => do
  amend c.apply
  insert (ascii "s4") page {}
  amend c.apply
  advance 5
  amend c.apply
  return some { body := ascii "text" }

theorem amends {R : Request → Request → Prop} {c : Request.Change}
    (hc : ∀ r r', R r r' → R r (c.apply r')) (url : Url) :
    Amends R (render url) (meddling c url) :=
  .amend hc <| .bind (.of_blind fun _ _ => rfl) fun _ =>
    .amend hc <| .bind (.of_blind fun _ _ => rfl) fun _ =>
      .amend hc <| .of_blind fun _ _ => rfl

/-- All but the session. -/
def facts : Request.Change where
  current := some page
  target := some .empty
  ajax := some true
  keepUrl := some true
  temporarySession := some true
  stateless := some true
  newInstance := some true

def moved : Request.Change := { facts with session := some (ascii "s2") }

theorem alike (c : Request.Change) : render.Alike (meddling c) :=
  Renderer.alike_of_amends (R := fun _ _ => True) (fun _ => trivial) (amends fun _ _ => id)

theorem sameSession : render.SameSession (meddling facts) :=
  Renderer.sameSession_of_amends (amends fun _ _ => id)

end Meddling

theorem facts_read_once_meddling :
    ((Handler.plain.answer (Meddling.meddling Meddling.facts)).run Meddling.form).2.store =
      ((Handler.plain.answer Meddling.render).run Meddling.form).2.store ∧
    Handler.plain.calls (Meddling.meddling Meddling.moved) Meddling.form =
      Handler.plain.calls Meddling.render Meddling.form ∧
    ∃ (response : Response) (y z : Exchange Transcript), y.Alike z ∧
      ((Handler.plain.answer Meddling.render).run Meddling.form).2 =
        y.keep Meddling.page response ∧
      ((Handler.plain.answer (Meddling.meddling Meddling.moved)).run Meddling.form).2 =
        z.keep Meddling.page response := by
  obtain ⟨-, -, -, hleft, -⟩ :=
    facts_read_once Handler.plain (Meddling.alike Meddling.facts) Meddling.form
  obtain ⟨-, hcalls, -, -, -, hkept⟩ :=
    facts_read_once Handler.plain (Meddling.alike Meddling.moved) Meddling.form
  have hrun : ((Handler.plain.answer Meddling.render).run Meddling.form).1 =
      .ok .bufferedRedirect := by
    decide +kernel
  obtain ⟨request, hend⟩ := hleft Meddling.sameSession
  exact ⟨by rw [hend], hcalls, hkept hrun⟩

end PageReply
