import PageReply.Http.Message
import PageReply.Proofs.Http.Field

/-!
# Messages can be read back

Who receives a message cuts it at the first empty line. What is before that is the head: its lines
are the status, the fields and the length. All after it is the body. No phrase, name or value has a
line end in it, so a message is cut where it was put together, whatever is in its body, and nothing
is lost on the way.
-/

namespace PageReply

namespace Bytes

theorem unbroken_signedDecimal (i : Int) : (signedDecimal i).Unbroken := by
  constructor
  · intro h
    exact absurd (mem_signedDecimal h) (by decide)
  · intro h
    exact absurd (mem_signedDecimal h) (by decide)

theorem unbroken_decimal (n : Nat) : (decimal n).Unbroken :=
  unbroken_signedDecimal (.ofNat n)

/-! ## Lines -/

/-- The lines of a text, which CR LF separates. -/
def lines : Bytes → List Bytes
  | [] => [[]]
  | [b] => [[b]]
  | b :: c :: v =>
    if b = Byte.cr ∧ c = Byte.lf then [] :: lines v
    else (lines (c :: v)).modifyHead (b :: ·)

theorem lines_crlf_append (v : Bytes) : lines (crlf ++ v) = [] :: lines v := by
  simp [lines]

theorem lines_append {l : Bytes} (h : Byte.cr ∉ l) (v : Bytes) :
    lines (l ++ v) = (lines v).modifyHead (l ++ ·) := by
  induction l with
  | nil => exact (congrFun List.modifyHead_id (lines v)).symm
  | cons b l ih =>
    simp only [List.mem_cons, not_or] at h
    have hstep : lines (b :: (l ++ v)) = (lines (l ++ v)).modifyHead (b :: ·) := by
      cases l ++ v with
      | nil => rfl
      | cons c w => rw [lines, if_neg fun hend => h.1 hend.1.symm]
    rw [List.cons_append, hstep, ih h.2, List.modifyHead_modifyHead]
    rfl

/-- Lines that are put together are the lines of the result. -/
theorem lines_intercalate {ls : List Bytes} (hne : ls ≠ []) (hcr : ∀ l ∈ ls, Byte.cr ∉ l) :
    lines (crlf.intercalate ls) = ls := by
  induction ls with
  | nil => exact absurd rfl hne
  | cons l ls ih =>
    have hl := hcr l List.mem_cons_self
    cases ls with
    | nil =>
      have hlast := lines_append hl []
      simpa [lines] using hlast
    | cons k ls =>
      rw [List.intercalate_cons_cons, List.append_assoc, lines_append hl, lines_crlf_append,
        ih (by simp) fun l' hl' => hcr l' (List.mem_cons_of_mem l hl')]
      simp

theorem flatMap_crlf {ls : List Bytes} (hne : ls ≠ []) :
    ls.flatMap (· ++ crlf) = crlf.intercalate ls ++ crlf := by
  induction ls with
  | nil => exact absurd rfl hne
  | cons l ls ih =>
    cases ls with
    | nil => simp
    | cons k ls =>
      rw [List.flatMap_cons, ih (by simp), List.intercalate_cons_cons]
      simp only [List.append_assoc]

/-! ## Cutting -/

/-- Before the empty line that ends the head there is none, whatever follows. -/
theorem length_head_le {ls : List Bytes} (hcr : ∀ l ∈ ls, Byte.cr ∉ l) (hne : ∀ l ∈ ls, l ≠ [])
    {body before after : Bytes}
    (h : ls.flatMap (· ++ crlf) ++ (crlf ++ body) = before ++ (crlf ++ crlf ++ after)) :
    (ls.flatMap (· ++ crlf)).length ≤ before.length + crlf.length := by
  induction ls generalizing before with
  | nil => simp
  | cons l ls ih =>
    simp only [List.flatMap_cons, List.append_assoc] at h ⊢
    -- the first line is over when the empty line comes
    obtain ⟨rest, rfl⟩ := prefix_of_not_mem (hcr l List.mem_cons_self) h
    rw [List.append_assoc, List.append_cancel_left_eq] at h
    match rest with
    | [] =>
      rw [List.nil_append, List.append_cancel_left_eq] at h
      cases ls with
      | nil => simp
      | cons k ls =>
        rw [List.flatMap_cons, List.append_assoc, List.append_assoc] at h
        have hk : k <+: [] := prefix_of_not_mem (hcr k (by simp)) h
        exact absurd (List.prefix_nil.1 hk) (hne k (by simp))
    | [c] =>
      have hsecond : Byte.lf = Byte.cr := (List.cons_eq_cons.1 (List.cons_eq_cons.1 h).2).1
      exact absurd hsecond (by decide)
    | c :: d :: rest =>
      have hrest : ls.flatMap (· ++ crlf) ++ (crlf ++ body) = rest ++ (crlf ++ crlf ++ after) := by
        simpa using (List.cons_eq_cons.1 (List.cons_eq_cons.1 h).2).2
      have hlength := ih (fun k hk => hcr k (List.mem_cons_of_mem l hk))
        (fun k hk => hne k (List.mem_cons_of_mem l hk)) hrest
      simp only [List.length_append, List.length_cons, List.length_nil] at hlength ⊢
      omega

/-- What was put together of lines, an empty line and a body is cut at that empty line. -/
theorem dropInfix?_of_lines {ls : List Bytes} (hcr : ∀ l ∈ ls, Byte.cr ∉ l)
    (hne : ∀ l ∈ ls, l ≠ []) (hsome : ls ≠ []) (body : Bytes) :
    (ls.flatMap (· ++ crlf) ++ crlf ++ body).dropInfix? (crlf ++ crlf) =
      some (crlf.intercalate ls, body) := by
  rw [List.dropInfix?_eq_some_iff]
  constructor
  · refine ⟨_, ?_, BEq.rfl⟩
    rw [flatMap_crlf hsome]
    simp only [List.append_assoc]
  · intro before found after hsplit hfound
    obtain rfl := eq_of_beq hfound
    rw [List.append_assoc, List.append_assoc] at hsplit
    have hlength := length_head_le hcr hne hsplit
    rw [flatMap_crlf hsome, List.length_append] at hlength
    omega

end Bytes

/-! ## The lines of a head -/

namespace Status

/-- The codes that are followed by words, and the words. -/
def phrases : List (Int16 × Bytes) := [
  (200, ascii "OK"),
  (301, ascii "Moved Permanently"),
  (302, ascii "Found"),
  (303, ascii "See Other"),
  (307, ascii "Temporary Redirect"),
  (308, ascii "Permanent Redirect"),
  (500, ascii "Internal Server Error")]

theorem phrase?_eq_lookup (s : Status) : s.phrase? = phrases.lookup s.code := by
  simp only [phrase?, phrases, List.lookup_cons, List.lookup_nil, beq_eq_decide]
  repeat' split
  all_goals simp_all

theorem unbroken_phrase {code : Int16} {phrase : Bytes} (h : phrases.lookup code = some phrase) :
    phrase.Unbroken := by
  have hall : ∀ p ∈ phrases, p.2.Unbroken := by decide +kernel
  obtain ⟨before, after, hsplit, -⟩ := List.lookup_eq_some_iff.1 h
  exact hall (code, phrase) (by simp [hsplit])

/-- What stands after the code. -/
def tail (s : Status) : Bytes :=
  ((phrases.lookup s.code).map (Byte.space :: ·)).getD []

theorem line_eq (s : Status) :
    s.line = ascii "HTTP/1.1 " ++ Bytes.signedDecimal s.code.toInt ++ s.tail := by
  rw [line, tail, phrase?_eq_lookup]
  cases phrases.lookup s.code <;> rfl

theorem unbroken_line (s : Status) : s.line.Unbroken := by
  have htail : s.tail.Unbroken := by
    rw [tail]
    cases hphrase : phrases.lookup s.code with
    | none => decide
    | some phrase =>
      have hspace : Bytes.Unbroken [Byte.space] := by decide
      exact hspace.append (unbroken_phrase hphrase)
  rw [line_eq]
  exact (Bytes.Unbroken.append (by decide +kernel) (Bytes.unbroken_signedDecimal _)).append htail

/-- The code ends where a space or the line does. -/
theorem takeWhile_line (s : Status) :
    (s.line.drop (ascii "HTTP/1.1 ").length).takeWhile (· ≠ Byte.space) =
      Bytes.signedDecimal s.code.toInt := by
  have hcode : ∀ b ∈ Bytes.signedDecimal s.code.toInt, decide (b ≠ Byte.space) = true := by
    intro b hb
    rcases Bytes.mem_signedDecimal hb with rfl | hdigit
    · decide
    · refine decide_eq_true fun hspace => ?_
      rw [hspace] at hdigit
      exact absurd hdigit (by decide)
  have htail : s.tail.takeWhile (· ≠ Byte.space) = [] := by
    rw [tail]
    cases phrases.lookup s.code with
    | none => rfl
    | some phrase => exact List.takeWhile_cons_of_neg (by simp)
  rw [line_eq, List.append_assoc, List.drop_left, List.takeWhile_append_of_pos hcode, htail,
    List.append_nil]

theorem line_injective : Function.Injective line := by
  intro s t hline
  have hcode := s.takeWhile_line
  rw [hline, t.takeWhile_line, Bytes.signedDecimal_inj, Int16.toInt_inj] at hcode
  cases s
  cases t
  exact congrArg Status.mk hcode.symm

end Status

namespace Message

variable (m : Message)

theorem unbroken_of_mem_head {line : Bytes} (h : line ∈ m.head) : line.Unbroken := by
  simp only [head, List.cons_append, List.mem_cons, List.mem_append, List.mem_map,
    List.not_mem_nil, or_false] at h
  obtain rfl | ⟨header, -, rfl⟩ | rfl := h
  · exact m.status.unbroken_line
  · exact header.unbroken_raw
  · exact Bytes.Unbroken.append (by decide +kernel) (Bytes.unbroken_decimal _)

theorem ne_nil_of_mem_head {line : Bytes} (h : line ∈ m.head) : line ≠ [] := by
  simp only [head, List.cons_append, List.mem_cons, List.mem_append, List.mem_map,
    List.not_mem_nil, or_false] at h
  obtain rfl | ⟨header, -, rfl⟩ | rfl := h
  · rw [Status.line_eq, List.append_assoc]
    exact List.append_ne_nil_of_left_ne_nil (by decide +kernel) _
  · exact List.append_ne_nil_of_left_ne_nil
      (List.append_ne_nil_of_left_ne_nil header.name_valid.1 _) _
  · exact List.append_ne_nil_of_left_ne_nil (by decide +kernel) _

theorem head_ne_nil : m.head ≠ [] := by simp [head]

/-- The head as it is sent, up to the empty line. -/
def headText : Bytes :=
  Bytes.crlf.intercalate m.head

theorem lines_headText : m.headText.lines = m.head :=
  Bytes.lines_intercalate m.head_ne_nil fun _ hline => (m.unbroken_of_mem_head hline).1

theorem wire_dropInfix? :
    m.wire.dropInfix? (Bytes.crlf ++ Bytes.crlf) = some (m.headText, m.body) :=
  Bytes.dropInfix?_of_lines (fun _ hline => (m.unbroken_of_mem_head hline).1)
    (fun _ hline => m.ne_nil_of_mem_head hline) m.head_ne_nil m.body

/-- Messages of the same wire form have the same status, fields and body. What else there is to a
message does not show. -/
theorem eq_of_wire {m n : Message} (h : n.wire = m.wire) :
    n.status = m.status ∧ n.headers = m.headers ∧ n.body = m.body := by
  have hcut := n.wire_dropInfix?
  rw [h, m.wire_dropInfix?, Option.some.injEq, Prod.mk.injEq] at hcut
  have hhead : n.head = m.head := by
    rw [← n.lines_headText, ← m.lines_headText, hcut.1]
  simp only [head, List.cons_append, List.cons_eq_cons] at hhead
  obtain ⟨hfields, -⟩ := List.append_inj' hhead.2 rfl
  exact ⟨Status.line_injective hhead.1, List.map_injective_iff.2 Header.raw_injective hfields,
    hcut.2.symm⟩

/-- **A message can be read back without ambiguity**, whatever calls have built it and whatever is
in its body. Cut at its first empty line it gives the head and the body; the lines of the head are
the status with the words for it, the fields, each of which gives its name and value when it is cut
at its first separator, also those by which it is stored, and the length; no other line end is in
the head; and messages that look the same have the same status, fields and body. -/
theorem wire_unambiguous :
    ∃ head : Bytes,
      m.wire.dropInfix? (Bytes.crlf ++ Bytes.crlf) = some (head, m.body) ∧
      head.lines =
        (ascii "HTTP/1.1 " ++ Bytes.signedDecimal m.status.code.toInt ++
            ((Status.phrases.lookup m.status.code).map (Byte.space :: ·)).getD []) ::
          m.headers.map (·.raw) ++ [ascii "Content-Length: " ++ Bytes.decimal m.body.length] ∧
      (∀ h ∈ m.headers, h.raw.dropInfix? (ascii ": ") = some (h.name, h.value) ∧
        (h.name.length < UInt32.size →
          h.raw.dropInfix? (ascii ": ") = some (h.line.name, h.line.value))) ∧
      Bytes.crlf.intercalate head.lines = head ∧
      (∀ line ∈ head.lines, Byte.cr ∉ line ∧ Byte.lf ∉ line) ∧
      ∀ n : Message, n.wire = m.wire →
        n.status = m.status ∧ n.headers = m.headers ∧ n.body = m.body := by
  refine ⟨m.headText, m.wire_dropInfix?, ?_,
    fun h _ => ⟨h.raw_dropInfix?, Header.raw_dropInfix?_line⟩, ?_, ?_, fun n => eq_of_wire⟩
  · rw [lines_headText, head, Status.line_eq]
    rfl
  · rw [lines_headText, headText]
  · rw [lines_headText]
    exact fun line => m.unbroken_of_mem_head

/-- An answer to a submission, with a separator in a value and another message in its body. -/
def nested : Message where
  status := .seeOther
  headers := [
    { name := ascii "Via"
      value := ascii "a: b"
      name_valid := by decide +kernel
      value_valid := by decide +kernel
      value_trimmed := by decide +kernel }]
  body := ascii "\r\n\r\nHTTP/1.1 200 OK\r\n\r\n"

theorem wire_unambiguous_nested :
    ∃ head : Bytes, nested.wire.dropInfix? (Bytes.crlf ++ Bytes.crlf) = some (head, nested.body) ∧
      head.lines =
        [ascii "HTTP/1.1 303 See Other", ascii "Via: a: b", ascii "Content-Length: 23"] ∧
      (∀ h ∈ nested.headers,
        h.raw.dropInfix? (ascii ": ") = some (h.line.name, h.line.value)) ∧
      ({ nested with ajax := true } : Message).headers = nested.headers := by
  obtain ⟨head, hcut, hlines, hparts, -, -, hsame⟩ := wire_unambiguous nested
  have hshort : ∀ h ∈ nested.headers, h.name.length < UInt32.size := by decide +kernel
  have hwire : ({ nested with ajax := true } : Message).wire = nested.wire := rfl
  exact ⟨head, hcut, hlines.trans (by decide +kernel),
    fun h hh => (hparts h hh).2 (hshort h hh), (hsame _ hwire).2.1⟩

end Message

end PageReply
