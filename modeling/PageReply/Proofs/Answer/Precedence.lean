import PageReply.Proofs.Answer.Failure
import PageReply.Proofs.Answer.Reference
import PageReply.Proofs.Answer.Renders
import PageReply.Proofs.Store.Expiry

/-!
# A waiting page comes first

When an entry waits for a request, the answer is settled by the entry and by the live response. What
else is known of the request is not asked for, nor are the settings, the policy or the render, not
even when the live response refuses a call. So two requests for which the same entry waits are
answered alike, however much they differ.
-/

namespace PageReply

variable {σ : Type} {x y : Exchange σ} {session : Bytes} {url : Url} {e : Entry}

/-- The request is of a session and for a page, and an entry of these waits in the store that is
young enough to be handed out. -/
structure Exchange.Awaits (x : Exchange σ) (session : Bytes) (url : Url) (e : Entry) : Prop where
  session : x.request.session = session
  target : x.request.target = url
  held : e ∈ x.store.entries
  key : e.key = Store.key x.request.session x.request.target
  young : ¬ e.Expired x.store.limits.lifetime x.now

namespace Exchange.Awaits

theorem found (hwaits : x.Awaits session url e) (hnodup : (x.store.entries.map (·.key)).Nodup) :
    Handler.found x = .hit e.response := by
  have hlookup := Store.lookup_of_mem hnodup hwaits.held x.now
  rw [if_neg hwaits.young, hwaits.key] at hlookup
  exact hlookup

/-- The look-up takes the entry and nothing else. -/
theorem entries_take (hwaits : x.Awaits session url e)
    (hnodup : (x.store.entries.map (·.key)).Nodup) :
    (x.store.take x.now x.request.session x.request.target).2.entries =
      x.store.entries.erase e := by
  have hsame : ∀ f ∈ x.store.entries,
      f.key = Store.key x.request.session x.request.target ↔ f = e := by
    intro f hf
    rw [← hwaits.key]
    exact ⟨List.inj_on_of_nodup_map hnodup hf hwaits.held, congrArg Entry.key⟩
  rw [hnodup.of_map.erase_eq_filter]
  refine List.filter_congr fun f hf => ?_
  by_cases hfe : f = e
  · simp [hfe, hwaits.key]
  · simp [hsame f hf, hfe]

/-- Both look-ups find the same and leave the same store, whenever they are made. -/
theorem take_eq (hx : x.Awaits session url e) (hy : y.Awaits session url e)
    (hnodup : (x.store.entries.map (·.key)).Nodup) (hstore : y.store = x.store) :
    y.store.take y.now y.request.session y.request.target =
      x.store.take x.now x.request.session x.request.target := by
  have hfound : Handler.found y = Handler.found x := by
    rw [hx.found hnodup, hy.found (hstore ▸ hnodup)]
  have hkey : Store.key y.request.session y.request.target =
      Store.key x.request.session x.request.target := by
    rw [← hx.key, ← hy.key]
  refine Prod.ext hfound ?_
  change { y.store.erase _ with stats := y.store.stats.afterLookup (Handler.found y) } =
    { x.store.erase _ with stats := x.store.stats.afterLookup (Handler.found x) }
  rw [hfound, hkey, hstore]

end Exchange.Awaits

/-- **A waiting page settles the answer**: of two requests of a session for a page that meet the
same store, where an entry waits for them, and the same live response, both end with the same
outcome or fault, make the same calls, and leave the same store and the same live response, whatever
else is known of each of them, whichever handlers answer them and whoever would render the page.
Neither has the page rendered. The calls send the response of the entry, up to the first that is
refused; the entry is gone, and it alone. -/
theorem waiting_page_settles [Live σ] (hreach : x.clocked.Reachable)
    (hx : x.Awaits session url e) (hy : y.Awaits session url e) (hstore : y.store = x.store)
    (hlive : y.live = x.live) (h h' : Handler) (render render' : Renderer σ) :
    ((h'.answer render').run y).1 = ((h.answer render).run x).1 ∧
    h'.calls render' y = h.calls render x ∧
    ((h'.answer render').run y).2.store = ((h.answer render).run x).2.store ∧
    ((h'.answer render').run y).2.live = ((h.answer render).run x).2.live ∧
    (h.renders render x = [] ∧ h'.renders render' y = []) ∧
    ((h.answer render).run x).1 =
      (Live.performAll (replay e.response) x.live).1.map (fun _ => .bufferedWrite) ∧
    h.calls render x <+: replay e.response ∧
    ((h.answer render).run x).2.store.entries = x.store.entries.erase e ∧
    ∀ later, (((h.answer render).run x).2.store.take later session url).1 = .missing := by
  have hnodup := hreach.wf.nodup
  have hfoundx := hx.found hnodup
  have hfoundy := hy.found (hstore ▸ hnodup)
  have hrunx := h.run_answer_of_found render hfoundx
  have hruny := h'.run_answer_of_found render' hfoundy
  rw [hlive] at hruny
  refine ⟨?_, ?_, ?_, ?_, ⟨h.renders_of_found render hfoundx, h'.renders_of_found render' hfoundy⟩,
    ?_, ?_, ?_, ?_⟩
  · rw [hrunx, hruny]
  · rw [h.calls_of_found render hfoundx, h'.calls_of_found render' hfoundy, hlive]
  · rw [hrunx, hruny]
    exact congrArg Prod.snd (hx.take_eq hy hnodup hstore)
  · rw [hrunx, hruny]
  · rw [hrunx]
    rfl
  · rw [h.calls_of_found render hfoundx]
    exact Live.made_prefix _ _
  · rw [hrunx]
    exact hx.entries_take hnodup
  · intro later
    rw [hrunx, ← hx.session, ← hx.target]
    exact Store.lookup_erase x.store later _

namespace Standby

def page : Url := .ofBytes (ascii "page")

def response : Response := { headers := [Stumble.field], body := ascii "text" }

/-- A page waits for one session, behind the page of another. -/
def store : Store :=
  (Store.tiny.insert 0 (ascii "s2") page {}).insert 5 (ascii "s1") page response

def entry : Entry := ⟨Store.key (ascii "s1") page, response, 5⟩

/-- A request of the session from a form, on a live response that takes no fields. -/
def fromForm : Exchange Transcript where
  store := store
  clock := Clock.advance {} 5
  request := { current := .ofBytes (ascii "form"), target := page, session := ascii "s1" }
  live := { failOn := some .header }

/-- A later request of the session for the same page, made by a script. -/
def fromScript : Exchange Transcript where
  store := store
  clock := Clock.advance {} 1000004
  request :=
    { current := page
      target := page
      session := ascii "s1"
      ajax := true
      keepUrl := true
      temporarySession := true
      stateless := true
      newInstance := true }
  live := { failOn := some .header }

theorem reachable : fromForm.clocked.Reachable := by
  have hrun : fromForm.clocked = Clocked.follow ⟨.tiny, {}⟩
      [.insert (ascii "s2") page {}, .advance 5, .insert (ascii "s1") page response] := by
    decide +kernel
  rw [hrun]
  exact Clocked.reachable_follow Store.tiny.limits {} _

theorem fromForm_awaits : fromForm.Awaits (ascii "s1") page entry :=
  ⟨rfl, rfl, by decide +kernel, rfl, by decide +kernel⟩

theorem fromScript_awaits : fromScript.Awaits (ascii "s1") page entry :=
  ⟨rfl, rfl, by decide +kernel, rfl, by decide +kernel⟩

def insistent : Handler where
  config := ⟨{ strategy := .redirectToRender, redirectStatus := .seeOther }, by decide, by decide,
    by decide⟩
  policy := .alwaysRedirect

def broken : Renderer Transcript := fun _ => throw .bodyStarted

end Standby

theorem waiting_page_settles_standby :
    ((Standby.insistent.answer Standby.broken).run Standby.fromScript).1 =
      .error (.refused .header) ∧
    Standby.insistent.calls Standby.broken Standby.fromScript =
      [.status .ok, .header Stumble.field] ∧
    ((Standby.insistent.answer Standby.broken).run Standby.fromScript).2.store.entries =
      [⟨Store.key (ascii "s2") Standby.page, {}, 0⟩] := by
  obtain ⟨hresult, hcalls, hstore, -, -, -, -, hentries, -⟩ :=
    waiting_page_settles Standby.reachable Standby.fromForm_awaits Standby.fromScript_awaits rfl rfl
      Handler.plain Standby.insistent Stumble.render Standby.broken
  exact ⟨hresult.trans (by decide +kernel), hcalls.trans (by decide +kernel),
    (congrArg Store.entries hstore).trans (hentries.trans (by decide +kernel))⟩

end PageReply
