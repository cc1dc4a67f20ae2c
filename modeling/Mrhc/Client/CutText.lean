import Mrhc.Client.Framing

/-!
# Cut texts

The text of a ServerCutText message is received with a single `recv` into a buffer of fixed size,
and then used as a C string.
-/

namespace Mrhc

/-- The session when its peer offers no more than `cap` bytes at once. -/
def Session.capped (cap : Nat) (s : Session) : Session := s.on (s.conn.capped cap)

/-- The same result from a session whose peer offers no more than `cap` bytes at once. -/
def cappedResult (cap : Nat) : EStateM.Result Stop Session Bool → EStateM.Result Stop Session Bool
  | .ok b t => .ok b (t.capped cap)
  | .error e t => .error e (t.capped cap)

/-- In no session of this kind does `x` ask for more than `cap` bytes at once: it cannot tell
whether larger transfers are cut to `cap`. -/
def AsksWithin (cap : Nat) (x : ClientM Bool) (kind : Session → Prop) : Prop :=
  ∀ s, kind s → x.run (s.capped cap) = cappedResult cap (x.run s)

/-- The part of the message between its type and its text. -/
def ServerCutText.header (m : ServerCutText) : Bytes :=
  [m.padding.1, m.padding.2.1, m.padding.2.2] ++ store32 (htonl (UInt32.ofNat m.text.length))

/-- The header of this message arrives whole, and anything after it. -/
def Session.FacesHeader (m : ServerCutText) (s : Session) : Prop :=
  ∃ input recvs, s.conn.input = m.header ++ input ∧ s.conn.recvs = .whole :: recvs

/-- The header of this message arrives whole and its text in these pieces. -/
def Session.facingText (s : Session) (m : ServerCutText)
    (cut : Socket.Cutting m.text m.text.length) (rest : Bytes) (later : List Transfer) : Session :=
  s.on { s.conn with
    input := m.header ++ (m.text ++ rest)
    recvs := .whole :: (Socket.transfers cut.pieces ++ later) }

/-- `recv_server_cut_text` asks for no more than its buffer holds, finds a terminating zero in the
buffer, and has received exactly the text when it returns `true`, also where the log call of the
text has no defined behaviour: it may return. -/
structure DiscardsText (s : Session) (m : ServerCutText)
    (cut : Socket.Cutting m.text m.text.length) (rest : Bytes) (later : List Transfer) : Prop where
  asks : AsksWithin bufSize recvServerCutText (Session.FacesHeader m)
  inside : ∀ t, recvServerCutText.run (s.facingText m cut rest later) ≠ .error .outOfBounds t
  consumes : ∀ t, recvServerCutText.run (s.facingText m cut rest later) = .ok true t ∨
    recvServerCutText.run (s.facingText m cut rest later) = .error .badFormat t →
      t.conn.input = rest

theorem ServerCutText.header_length (m : ServerCutText) :
    m.header.length = sizeofServerCutText - 1 := rfl

theorem ServerCutText.length_toNat (m : ServerCutText) :
    (UInt32.ofNat m.text.length).toNat = m.text.length := by
  rw [UInt32.toNat_ofNat', Nat.mod_eq_of_lt m.length_lt]

theorem recvServerCutText_header {s : Session} {m : ServerCutText} {c : Socket UInt8}
    (h : s.conn.recv m.header.length = (some m.header, c)) :
    recvServerCutText.run s = (recvText (UInt32.ofNat m.text.length)).run (s.on c) := by
  have hload := load32_store32 [m.padding.1, m.padding.2.1, m.padding.2.2] []
    (htonl (UInt32.ofNat m.text.length))
  rw [List.append_nil] at hload
  change load32 m.header 3 = _ at hload
  rw [m.header_length] at h
  rw [recvServerCutText_run, Session.received_some h]
  simp only [hload, ntohl_htonl]

/-- What `recv_text` does with the bytes that it received. -/
def afterText (buf : Bytes) (t : Session) : EStateM.Result Stop Session Bool :=
  if bufSize < buf.length ∨ (buf.length = bufSize ∧ 0 ∉ buf) then .error .outOfBounds t
  else if formatComplete (cString buf) then .ok true t
  else .error .badFormat t

theorem recvText_received (m : ServerCutText) (s : Session) :
    (recvText (UInt32.ofNat m.text.length)).run s = s.received m.text.length afterText := by
  rw [recvText_run, m.length_toNat]
  rfl

private theorem afterText_capped (cap : Nat) (buf : Bytes) (t : Session) :
    afterText buf (t.capped cap) = cappedResult cap (afterText buf t) := by
  unfold afterText
  split
  · rfl
  · split <;> rfl

private theorem received_capped {cap n : Nat} (hn : n ≤ cap) (s : Session) :
    (s.capped cap).received n afterText = cappedResult cap (s.received n afterText) := by
  have hcapped : (s.capped cap).conn.recv n =
      ((s.conn.recv n).1, (s.conn.recv n).2.capped cap) := s.conn.recv_capped hn
  rcases hr : s.conn.recv n with ⟨_ | buf, c⟩
  · rw [hr] at hcapped
    rw [Session.received_none hr, Session.received_none hcapped]
    rfl
  · rw [hr] at hcapped
    rw [Session.received_some hr, Session.received_some hcapped]
    exact afterText_capped cap buf (s.on c)

private theorem asksWithin_iff (m : ServerCutText) :
    AsksWithin bufSize recvServerCutText (Session.FacesHeader m) ↔
      ∀ s : Session, (s.capped bufSize).received m.text.length afterText =
        cappedResult bufSize (s.received m.text.length afterText) := by
  have hrun : ∀ s : Session, ∀ input recvs, s.conn.input = m.header ++ input →
      s.conn.recvs = .whole :: recvs →
      let t := s.on { s.conn with input := input, recvs := recvs }
      recvServerCutText.run s = t.received m.text.length afterText ∧
        recvServerCutText.run (s.capped bufSize) =
          (t.capped bufSize).received m.text.length afterText := by
    intro s input recvs hi hr
    have hheader := Socket.recv_whole s.conn m.header input recvs hi hr
    have hcapped := s.conn.recv_capped (by rw [m.header_length]; decide :
      m.header.length ≤ bufSize)
    rw [hheader] at hcapped
    constructor
    · rw [recvServerCutText_header hheader, recvText_received]
    · rw [recvServerCutText_header hcapped, recvText_received]
      rfl
  constructor
  · intro h s
    let u := s.on { s.conn with
      input := m.header ++ s.conn.input
      recvs := .whole :: s.conn.recvs }
    have hu := hrun u s.conn.input s.conn.recvs rfl rfl
    have hsame := h u ⟨s.conn.input, s.conn.recvs, rfl, rfl⟩
    rw [hu.1, hu.2] at hsame
    exact hsame
  · intro h s hs
    obtain ⟨input, recvs, hi, hr⟩ := hs
    obtain ⟨hplain, hcapped⟩ := hrun s input recvs hi hr
    rw [hplain, hcapped]
    exact h _

private theorem received_zeros {n : Nat} (hlong : bufSize < n) :
    let s := configuredSession.on { Socket.delivering (List.replicate n 0) with recvs := [.whole] }
    (∃ t, s.received n afterText = .error .outOfBounds t) ∧
      ∃ t, (s.capped bufSize).received n afterText = .ok true t := by
  intro s
  have hwhole := Socket.recv_whole s.conn (List.replicate n 0) [] []
    (List.append_nil _).symm rfl
  have hcut := Socket.recv_piece (s.capped bufSize).conn (List.replicate bufSize 0)
    (List.replicate (n - bufSize) 0) [] n
    (by rw [List.replicate_append_replicate, Nat.add_sub_cancel' (Nat.le_of_lt hlong)]; rfl)
    (by rw [List.length_replicate]; rfl) (by rw [List.length_replicate]; omega)
  rw [List.length_replicate] at hwhole
  rw [Session.received_some hwhole, Session.received_some hcut]
  constructor
  · refine ⟨_, if_pos (Or.inl ?_)⟩
    rwa [List.length_replicate]
  · have hzero : bufSize = 1023 + 1 := rfl
    refine ⟨_, (if_neg ?_).trans (if_pos ?_)⟩
    · rw [List.length_replicate]
      intro hbad
      cases hbad with
      | inl hlt => exact absurd hlt (Nat.lt_irrefl _)
      | inr hno => exact hno.2 (List.mem_replicate.mpr ⟨by decide, rfl⟩)
    · rw [hzero, List.replicate_succ]
      rfl

/-- The size of the request is the announced length. -/
theorem recvServerCutText_asks_iff (m : ServerCutText) :
    AsksWithin bufSize recvServerCutText (Session.FacesHeader m) ↔ m.text.length ≤ bufSize := by
  rw [asksWithin_iff]
  constructor
  · intro h
    by_contra hlong
    obtain ⟨⟨t, hwhole⟩, t', hcut⟩ := received_zeros (Nat.lt_of_not_le hlong)
    have hsame := h (configuredSession.on { Socket.delivering
      (List.replicate m.text.length 0) with recvs := [.whole] })
    rw [hwhole, hcut] at hsame
    cases hsame
  · exact fun hfits s => received_capped hfits s

private theorem pieces_cases {text : Bytes} {cap : Nat} (cut : Socket.Cutting text cap) :
    (cut.pieces = [] ∧ text = []) ∨
      ∃ piece pieces, cut.pieces = piece :: pieces ∧ text = piece ++ pieces.flatten ∧
        (pieces.flatten = [] ↔ pieces = []) := by
  obtain ⟨pieces, joined, ne_nil, -⟩ := cut
  cases pieces with
  | nil => exact Or.inl ⟨rfl, joined.symm⟩
  | cons piece pieces =>
    refine Or.inr ⟨piece, pieces, rfl, joined.symm, fun h => ?_, fun h => by rw [h]; rfl⟩
    cases pieces with
    | nil => rfl
    | cons second pieces =>
      rw [List.flatten_cons] at h
      exact absurd (List.append_eq_nil_iff.mp h).1 (ne_nil second (by simp))

private theorem facingText_run (s : Session) (m : ServerCutText)
    (cut : Socket.Cutting m.text m.text.length) (rest : Bytes) (later : List Transfer)
    {piece : Bytes} {pieces : List Bytes} (hpieces : cut.pieces = piece :: pieces)
    (htext : m.text = piece ++ pieces.flatten) :
    recvServerCutText.run (s.facingText m cut rest later) =
      afterText piece (s.on { s.conn with
        input := pieces.flatten ++ rest
        recvs := Socket.transfers pieces ++ later }) := by
  have hheader := Socket.recv_whole (s.facingText m cut rest later).conn m.header
    (m.text ++ rest) (Socket.transfers cut.pieces ++ later) rfl rfl
  have hlength := congrArg List.length htext
  rw [List.length_append] at hlength
  rw [recvServerCutText_header hheader, recvText_received]
  apply Session.received_some
  apply Socket.recv_piece _ piece
  · simp [htext]
  · rw [hpieces]
    rfl
  · omega

private theorem received_nothing {n : Nat} (hn : n = 0) (s : Session) :
    ∃ b t, s.received n afterText = .ok b t ∧ t.conn.input = s.conn.input := by
  subst hn
  rcases s.conn.recv_cases 0 with h | ⟨k, hk, h⟩
  · exact ⟨false, _, Session.received_none h _, rfl⟩
  · obtain rfl : k = 0 := by omega
    exact ⟨true, _, Session.received_some h _, rfl⟩

private theorem facingText_empty (s : Session) (m : ServerCutText)
    (cut : Socket.Cutting m.text m.text.length) (rest : Bytes) (later : List Transfer)
    (htext : m.text = []) :
    ∃ b t, recvServerCutText.run (s.facingText m cut rest later) = .ok b t ∧
      t.conn.input = rest := by
  have hheader := Socket.recv_whole (s.facingText m cut rest later).conn m.header
    (m.text ++ rest) (Socket.transfers cut.pieces ++ later) rfl rfl
  obtain ⟨b, t, hrun, hinput⟩ := received_nothing (List.length_eq_zero_iff.mpr htext)
    ((s.facingText m cut rest later).on { (s.facingText m cut rest later).conn with
      input := m.text ++ rest
      recvs := Socket.transfers cut.pieces ++ later })
  refine ⟨b, t, ?_, ?_⟩
  · rw [recvServerCutText_header hheader, recvText_received]
    exact hrun
  · have hnothing : m.text ++ rest = rest := by rw [htext, List.nil_append]
    exact hinput.trans hnothing

/-- The text fits the buffer, with a zero when it fills it, and arrives at once. -/
def FitsBuffer (m : ServerCutText) (cut : Socket.Cutting m.text m.text.length) : Prop :=
  m.text.length ≤ bufSize ∧ (m.text.length = bufSize → 0 ∈ m.text) ∧ cut.pieces.length ≤ 1

instance (m : ServerCutText) (cut : Socket.Cutting m.text m.text.length) :
    Decidable (FitsBuffer m cut) := inferInstanceAs (Decidable (_ ∧ _ ∧ _))

private theorem afterText_discards {text piece rest : Bytes} {pieces : List Bytes} {t : Session}
    (htext : text = piece ++ pieces.flatten) (hend : pieces.flatten = [] ↔ pieces = [])
    (hfits : text.length ≤ bufSize) (ht : t.conn.input = pieces.flatten ++ rest) :
    ((∀ u, afterText piece t ≠ .error .outOfBounds u) ∧
        ∀ u, afterText piece t = .ok true u ∨ afterText piece t = .error .badFormat u →
          u.conn.input = rest) ↔
      (text.length = bufSize → 0 ∈ text) ∧ pieces = [] := by
  have hlength := congrArg List.length htext
  rw [List.length_append] at hlength
  have hwhole : piece.length = bufSize → pieces = [] ∧ text = piece := by
    intro hfull
    have hnil : pieces.flatten = [] := List.length_eq_zero_iff.mp (by omega)
    exact ⟨hend.mp hnil, by rw [htext, hnil, List.append_nil]⟩
  have hshort : ¬bufSize < piece.length := by omega
  by_cases hbad : piece.length = bufSize ∧ 0 ∉ piece
  · obtain ⟨hnil, hpiece⟩ := hwhole hbad.1
    have hrun : afterText piece t = .error .outOfBounds t := if_pos (Or.inr hbad)
    constructor
    · intro h
      exact absurd hrun (h.1 t)
    · intro h
      rw [hpiece] at h
      exact absurd (h.1 hbad.1) hbad.2
  · have hzero : pieces = [] → text.length = bufSize → 0 ∈ text := by
      intro hnil hfull
      by_contra hno
      rw [hnil, List.flatten_nil, List.append_nil] at htext
      rw [htext] at hfull hno
      exact hbad ⟨hfull, hno⟩
    have hleft : pieces = [] ↔ t.conn.input = rest := by
      rw [ht, List.append_left_eq_self, hend]
    have hrun : afterText piece t =
        if formatComplete (cString piece) then .ok true t else .error .badFormat t :=
      if_neg (not_or.mpr ⟨hshort, hbad⟩)
    have hreach : ∀ u, (afterText piece t = .ok true u ∨
        afterText piece t = .error .badFormat u) ↔ t = u := by
      intro u
      rw [hrun]
      split <;> simp
    have hinside : ∀ u, afterText piece t ≠ .error .outOfBounds u := by
      intro u
      rw [hrun]
      split <;> simp
    constructor
    · intro h
      have hnil := hleft.mpr (h.2 t ((hreach t).mpr rfl))
      exact ⟨hzero hnil, hnil⟩
    · intro h
      refine ⟨hinside, fun u hu => ?_⟩
      rw [← (hreach u).mp hu]
      exact hleft.mp h.2

/-- A cut text is discarded safely and completely exactly when it fits the buffer in this way. -/
theorem recvServerCutText_discards_iff (s : Session) (m : ServerCutText)
    (cut : Socket.Cutting m.text m.text.length) (rest : Bytes) (later : List Transfer) :
    DiscardsText s m cut rest later ↔ FitsBuffer m cut := by
  have hasks := recvServerCutText_asks_iff m
  cases pieces_cases cut with
  | inl h =>
    obtain ⟨hnil, htext⟩ := h
    obtain ⟨b, t, hrun, hinput⟩ := facingText_empty s m cut rest later htext
    have hshort : m.text.length ≤ bufSize := by rw [htext]; exact Nat.zero_le _
    constructor
    · intro _
      exact ⟨hshort, by simp [htext, bufSize], by simp [hnil]⟩
    · intro _
      refine ⟨hasks.mpr hshort, fun u hu => ?_, fun u hu => ?_⟩
      · rw [hrun] at hu
        cases hu
      · rw [hrun] at hu
        simp only [EStateM.Result.ok.injEq, reduceCtorEq, or_false] at hu
        rw [← hu.2, hinput]
  | inr h =>
    obtain ⟨piece, pieces, hpieces, htext, hend⟩ := h
    have hrun := facingText_run s m cut rest later hpieces htext
    have hmost : cut.pieces.length ≤ 1 ↔ pieces = [] := by simp [hpieces]
    let t := s.on { s.conn with
      input := pieces.flatten ++ rest
      recvs := Socket.transfers pieces ++ later }
    have ht : t.conn.input = pieces.flatten ++ rest := rfl
    constructor
    · intro h
      have hfits := hasks.mp h.asks
      have hinside := h.inside
      have hconsumes := h.consumes
      rw [hrun] at hinside hconsumes
      rw [FitsBuffer, hmost]
      exact ⟨hfits, (afterText_discards htext hend hfits ht).mp ⟨hinside, hconsumes⟩⟩
    · intro h
      rw [FitsBuffer, hmost] at h
      obtain ⟨hfits, hcondition⟩ := h
      have hdiscards := (afterText_discards htext hend hfits ht).mpr hcondition
      rw [← hrun] at hdiscards
      exact ⟨hasks.mpr hfits, hdiscards.1, hdiscards.2⟩

/-- A text of five characters. -/
def helloText : ServerCutText := ⟨(0, 0, 0), ascii "hello", by decide⟩

def helloPieces : Socket.Cutting helloText.text helloText.text.length where
  pieces := [ascii "he", ascii "llo"]
  joined := rfl
  ne_nil := by decide
  length_le := by decide

def longText : ServerCutText where
  padding := (0, 0, 0)
  text := List.replicate 1025 0x61
  length_lt := by rw [List.length_replicate]; decide

/-- The second piece of a text is left on the stream, and a long text is asked for at once. -/
theorem recvServerCutText_not_discards :
    ¬DiscardsText configuredSession helloText helloPieces [] [] ∧
      ¬AsksWithin bufSize recvServerCutText (Session.FacesHeader longText) := by
  constructor
  · intro h
    have hfits :=
      (recvServerCutText_discards_iff configuredSession helloText helloPieces [] []).mp h
    exact absurd hfits (by decide)
  · intro h
    have hfits : longText.text.length ≤ bufSize := (recvServerCutText_asks_iff longText).mp h
    rw [longText, List.length_replicate] at hfits
    exact absurd hfits (by decide)

end Mrhc
