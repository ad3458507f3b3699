import PageReply.Proofs.Store.Provenance
import PageReply.Proofs.Url

/-!
# Which texts share a page

Two texts address one page if, up to their fragments, they are the same, or one is the other and a
question mark more, where the other has none at its end. In no other case do they, and then neither
is ever given a response that was buffered for the other.
-/

namespace PageReply

namespace Bytes

variable {url part v w : Bytes}

/-- The part of a text up to its fragment, which opens with the first hash sign. -/
def UpToFragment (url part : Bytes) : Prop :=
  Byte.hash ∉ part ∧ (url = part ∨ ∃ fragment, url = part ++ Byte.hash :: fragment)

theorem upToFragment_iff : url.UpToFragment part ↔ url.beforeFragment = part := by
  constructor
  · rintro ⟨hpart, rfl | ⟨fragment, rfl⟩⟩
    · exact beforeFragment_eq_self hpart
    · have hkept : ∀ b ∈ part, decide (b ≠ Byte.hash) = true := fun b hb =>
        decide_eq_true (ne_of_mem_of_not_mem hb hpart)
      rw [beforeFragment, List.takeWhile_append_of_pos hkept,
        List.takeWhile_cons_of_neg (by simp), List.append_nil]
  · rintro rfl
    refine ⟨hash_not_mem_beforeFragment url, ?_⟩
    have hsplit : url = url.beforeFragment ++ url.dropWhile (· ≠ Byte.hash) :=
      List.takeWhile_append_dropWhile.symm
    -- What is cut off is nothing, or it opens with the byte at which the part ends.
    cases hrest : url.dropWhile (· ≠ Byte.hash) with
    | nil => exact .inl (by rwa [hrest, List.append_nil] at hsplit)
    | cons b fragment =>
      have hopen := List.head?_dropWhile_not (· ≠ Byte.hash) url
      rw [hrest] at hopen hsplit
      obtain rfl : b = Byte.hash := by simpa using hopen
      exact .inr ⟨fragment, hsplit⟩

/-- The second text is the first with an empty query, and the first ends with no question mark. -/
def AddsEmptyQuery (v w : Bytes) : Prop :=
  w = v ++ [Byte.question] ∧ v.getLast? ≠ some Byte.question

/-- The texts, up to their fragments, are the same but for an empty query of one of them. -/
def SamePage (v w : Bytes) : Prop :=
  v = w ∨ AddsEmptyQuery v w ∨ AddsEmptyQuery w v

instance (v w : Bytes) : Decidable (AddsEmptyQuery v w) :=
  inferInstanceAs (Decidable (_ ∧ _))

instance (v w : Bytes) : Decidable (SamePage v w) :=
  inferInstanceAs (Decidable (_ ∨ _))

theorem AddsEmptyQuery.drop_eq (h : AddsEmptyQuery v w) :
    dropEmptyQuery w = dropEmptyQuery v := by
  obtain ⟨rfl, hlast⟩ := h
  rw [dropEmptyQuery_concat, dropEmptyQuery_eq_self_iff.2 hlast]

theorem dropEmptyQuery_eq_iff : dropEmptyQuery v = dropEmptyQuery w ↔ SamePage v w := by
  constructor
  · intro h
    -- If both lose a question mark, they were the same; if one does, it is the one with more.
    obtain ⟨hv, hvsame⟩ | hvdrop := dropEmptyQuery_cases v
    · obtain ⟨hw, hwsame⟩ | hwdrop := dropEmptyQuery_cases w
      · exact .inl (by rw [← hvsame, h, hwsame])
      · exact .inr (.inl ⟨by rw [hwdrop, ← h, hvsame], hv⟩)
    · obtain ⟨hw, hwsame⟩ | hwdrop := dropEmptyQuery_cases w
      · exact .inr (.inr ⟨by rw [hvdrop, h, hwsame], hw⟩)
      · exact .inl (by rw [hvdrop, h, ← hwdrop])
  · rintro (rfl | h | h)
    · rfl
    · exact h.drop_eq.symm
    · exact h.drop_eq

end Bytes

namespace Url

variable {a b c d : Bytes}

theorem ofBytes_eq_iff (ha : a.UpToFragment c) (hb : b.UpToFragment d) :
    ofBytes a = ofBytes b ↔ c.SamePage d := by
  rw [Bytes.upToFragment_iff] at ha hb
  rw [Url.ext_iff, text_ofBytes, text_ofBytes, ha, hb, Bytes.dropEmptyQuery_eq_iff]

theorem text_ofBytes_prefix (url : Bytes) : (ofBytes url).text <+: url := by
  have hquery : url.beforeFragment.dropEmptyQuery <+: url.beforeFragment := by
    obtain ⟨-, hsame⟩ | hdrop := Bytes.dropEmptyQuery_cases url.beforeFragment
    · exact hsame.symm ▸ List.prefix_rfl
    · exact ⟨_, hdrop.symm⟩
  exact hquery.trans (List.takeWhile_prefix _)

end Url

/-- **Which texts share a page**: two texts address one page if, up to their fragments, they are the
same but for an empty query, and only then. The page is named by the start of each, without a
fragment. So a response that is handed out for one text was put in for a page that the other text
addresses if the two are the same in this way, and only then, in whatever run of the store. -/
theorem page_shared_iff {a b c d : Bytes} (ha : a.UpToFragment c) (hb : b.UpToFragment d) :
    (Url.ofBytes a = Url.ofBytes b ↔ c.SamePage d) ∧
    (Url.ofBytes a).text <+: a ∧ Byte.hash ∉ (Url.ofBytes a).text ∧
    ∀ (start now : Clocked) (ms : List Moment) (session : Bytes) (response : Response),
      Run start ms now → start.store.entries = [] →
      now.found session (.ofBytes b) = .hit response →
      ∃ (url : Url) (earlier later : List Moment) (before : Clocked),
        ms = earlier ++ ⟨.insert session url response, before⟩ :: later ∧
        (∀ m ∈ later, m.op.slot? ≠ some (session, url)) ∧
        (url = .ofBytes a ↔ c.SamePage d) := by
  refine ⟨Url.ofBytes_eq_iff ha hb, Url.text_ofBytes_prefix a, (Url.ofBytes a).hash_not_mem, ?_⟩
  intro start now ms session response hrun hempty hit
  obtain ⟨earlier, later, before, hms, hlater, -⟩ := hrun.latest_of_hit hempty hit
  exact ⟨_, earlier, later, before, hms, hlater, eq_comm.trans (Url.ofBytes_eq_iff ha hb)⟩

namespace Queries

/-- A page is buffered with a fragment after its empty query, and another one for a text with one
question mark more. -/
def ops : List Op :=
  [.insert (ascii "s1") (.ofBytes (ascii "page?#top")) { body := ascii "text" },
    .insert (ascii "s1") (.ofBytes (ascii "page??")) {}]

def later : Clocked := Clocked.follow ⟨.tiny, {}⟩ ops

end Queries

theorem page_shared_iff_queries :
    Url.ofBytes (ascii "page??") ≠ Url.ofBytes (ascii "page") ∧
    ∃ (url : Url) (earlier later : List Moment) (before : Clocked),
      Clocked.moments ⟨.tiny, {}⟩ Queries.ops =
        earlier ++ ⟨.insert (ascii "s1") url { body := ascii "text" }, before⟩ :: later ∧
      url = .ofBytes (ascii "page?#top") := by
  have hplain : (ascii "page").UpToFragment (ascii "page") :=
    Bytes.upToFragment_iff.2 (by decide +kernel)
  have hempty : (ascii "page?#top").UpToFragment (ascii "page?") :=
    Bytes.upToFragment_iff.2 (by decide +kernel)
  have hmark : (ascii "page??").UpToFragment (ascii "page??") :=
    Bytes.upToFragment_iff.2 (by decide +kernel)
  have hit : Queries.later.found (ascii "s1") (.ofBytes (ascii "page")) =
      .hit { body := ascii "text" } := by
    decide +kernel
  obtain ⟨-, -, -, hserved⟩ := page_shared_iff hempty hplain
  obtain ⟨url, earlier, later, before, hmoments, -, hurl⟩ :=
    hserved _ _ _ _ _ (Clocked.run ⟨.tiny, {}⟩ Queries.ops) rfl hit
  exact ⟨fun hsame => absurd ((page_shared_iff hmark hplain).1.1 hsame) (by decide +kernel),
    url, earlier, later, before, hmoments, hurl.2 (by decide +kernel)⟩

end PageReply
