import Mrhc.Client.VncClient

/-!
# The log

The two overloads of `logger::logn`. One writes its message, the other takes it for the format of
`vasprintf`, and the type of the argument decides between them.
-/

namespace Mrhc

/-- The greatest length that `vasprintf` can return as an `int`. -/
def intMax : Nat := 2147483647

/-- What `vasprintf` writes for the rest of a format that no argument follows, when `directive` has
been read after a percent sign or is `none` outside of a directive. `strerror` is what `%m` writes
with these modifiers, and the result is `none` when the format ends in a directive, for which the
call returns a negative number. Any other directive reads an argument or is undefined itself. -/
def vasprintfFrom (strerror : Bytes → Bytes) : Option Bytes → Bytes → Except Stop (Option Bytes)
  | none, [] => .ok (some [])
  | some _, [] => .ok none
  | none, b :: bs =>
    if b = 0x25 then vasprintfFrom strerror (some []) bs
    else (vasprintfFrom strerror none bs).map (·.map (b :: ·))
  | some directive, b :: bs =>
    if b = 0x25 ∧ directive = [] then (vasprintfFrom strerror none bs).map (·.map (0x25 :: ·))
    else if b = 0x6d then (vasprintfFrom strerror none bs).map (·.map (strerror directive ++ ·))
    else if isFormatModifier b then vasprintfFrom strerror (some (directive ++ [b])) bs
    else .error .badFormat

def vasprintf (strerror : Bytes → Bytes) (format : Bytes) : Except Stop (Option Bytes) :=
  vasprintfFrom strerror none format

/-- The argument of a call of `logn` by its static type: a `std::string`, or an array of `char` or
a pointer to it. -/
inductive LogMessage where
  | string (message : Bytes)
  | chars (format : Bytes)
deriving DecidableEq, Repr

/-- `logger::logn`: the log file after the call. -/
def logn (strerror : Bytes → Bytes) (log : Bytes) : LogMessage → Except Stop Bytes
  | .string message => .ok (log ++ message ++ [0x0a])
  | .chars format => do
    match ← vasprintf strerror (cString format) with
    | none => return log
    | some message =>
      -- the result is negative as well, and the function returns
      if intMax < message.length then return log
      return log ++ message ++ [0x0a]

/-- The message is written as it is with a newline, as the overload for strings writes it. -/
def LogsVerbatim (m : Bytes) : Prop :=
  ∀ strerror log, logn strerror log (.chars m) = .ok (log ++ m ++ [0x0a]) ∧
    logn strerror log (.chars m) = logn strerror log (.string m)

section

variable {strerror : Bytes → Bytes} {m : Bytes}

theorem vasprintf_plain (strerror : Bytes → Bytes) (h : 0x25 ∉ m) :
    vasprintf strerror m = .ok (some m) := by
  induction m with
  | nil => rfl
  | cons b bs ih =>
    rw [List.mem_cons, not_or] at h
    rw [vasprintf, vasprintfFrom, if_neg (Ne.symm h.1), ← vasprintf, ih h.2]
    rfl

private theorem of_map_some {x : Except Stop (Option Bytes)} {f : Bytes → Bytes} {text : Bytes}
    (h : x.map (·.map f) = .ok (some text)) : ∃ rest, x = .ok (some rest) ∧ text = f rest := by
  rcases x with _ | _ | rest
  · cases h
  · cases h
  · cases h
    exact ⟨rest, rfl, rfl⟩

private theorem vasprintfFrom_count (directive : Option Bytes) {text : Bytes}
    (h : vasprintfFrom (fun _ => []) directive m = .ok (some text)) :
    text.count 0x25 ≤ m.count 0x25 := by
  -- a directive that writes anything writes at most one percent sign, and has one itself
  induction m generalizing directive text with
  | nil =>
    cases directive with
    | none =>
      cases h
      exact Nat.le_refl _
    | some directive => cases h
  | cons b bs ih =>
    have hcons : bs.count 0x25 ≤ (b :: bs).count 0x25 := List.count_le_count_cons
    cases directive with
    | none =>
      rw [vasprintfFrom] at h
      split at h
      · exact Nat.le_trans (ih _ h) hcons
      · next hb =>
        obtain ⟨rest, hrest, rfl⟩ := of_map_some h
        rw [List.count_cons_of_ne hb, List.count_cons_of_ne hb]
        exact ih _ hrest
    | some directive =>
      rw [vasprintfFrom] at h
      split at h
      · next hpercent =>
        obtain ⟨rest, hrest, rfl⟩ := of_map_some h
        rw [hpercent.1, List.count_cons_self, List.count_cons_self]
        exact Nat.succ_le_succ (ih _ hrest)
      · split at h
        · obtain ⟨rest, hrest, rfl⟩ := of_map_some h
          exact Nat.le_trans (ih _ hrest) hcons
        · split at h
          · exact Nat.le_trans (ih _ h) hcons
          · cases h

/-- Each directive loses its percent sign, so a format that is written as it is has none. -/
theorem vasprintf_self (h : vasprintf (fun _ => []) m = .ok (some m)) : 0x25 ∉ m := by
  suffices hlost : ∀ text, vasprintf (fun _ => []) m = .ok (some text) → 0x25 ∈ m →
      text.count 0x25 < m.count 0x25 from fun hmem => Nat.lt_irrefl _ (hlost m h hmem)
  clear h
  induction m with
  | nil => exact fun _ _ hmem => absurd hmem List.not_mem_nil
  | cons b bs ih =>
    intro text h hmem
    rw [vasprintf, vasprintfFrom] at h
    split at h
    · next hb =>
      rw [hb, List.count_cons_self]
      exact Nat.lt_succ_of_le (vasprintfFrom_count _ h)
    · next hb =>
      obtain ⟨rest, hrest, rfl⟩ := of_map_some h
      rw [List.count_cons_of_ne hb, List.count_cons_of_ne hb]
      exact ih rest hrest ((List.mem_cons.mp hmem).resolve_left (Ne.symm hb))

/-- `vasprintf` returns exactly for the formats that need no argument. -/
theorem vasprintf_ok_iff (strerror : Bytes → Bytes) (m : Bytes) :
    (∃ text, vasprintf strerror m = .ok text) ↔ formatComplete m := by
  have hmap : ∀ (f : Bytes → Bytes) (x : Except Stop (Option Bytes)),
      (∃ text, x.map (·.map f) = .ok text) ↔ ∃ text, x = .ok text := by
    intro f x
    cases x <;> simp [Except.map]
  suffices hfrom : ∀ directive, (∃ text, vasprintfFrom strerror directive m = .ok text) ↔
      formatCompleteFrom directive m = true from hfrom none
  induction m with
  | nil => intro directive; cases directive <;> simp [vasprintfFrom, formatCompleteFrom]
  | cons b bs ih =>
    intro directive
    cases directive with
    | none =>
      rw [vasprintfFrom, formatCompleteFrom]
      split
      · exact ih _
      · rw [hmap]
        exact ih _
    | some directive =>
      rw [vasprintfFrom, formatCompleteFrom]
      split
      · rw [hmap]
        exact ih _
      · split
        · rw [hmap]
          exact ih _
        · split
          · exact ih _
          · simp

/-- `loggerDebug` returns when the call of `logn` does, whatever is in the log. -/
theorem loggerDebug_run_iff (strerror : Bytes → Bytes) (buf log : Bytes) (s : Session) :
    (loggerDebug buf).run s = .ok () s ↔ ∃ log', logn strerror log (.chars buf) = .ok log' := by
  have hlogn : (∃ log', logn strerror log (.chars buf) = .ok log') ↔
      ∃ text, vasprintf strerror (cString buf) = .ok text := by
    rw [logn]
    rcases vasprintf strerror (cString buf) with e | _ | text
    · simp [bind, Except.bind]
    · simp [bind, Except.bind, pure, Except.pure]
    · by_cases hlong : intMax < text.length
      · simp [bind, Except.bind, pure, Except.pure, hlong]
      · simp [bind, Except.bind, pure, Except.pure, hlong]
  rw [hlogn, vasprintf_ok_iff, loggerDebug_run]
  by_cases hformat : formatComplete (cString buf) = true
  · simp [hformat]
  · simp [hformat]

private theorem logn_chars (log : Bytes) (hzero : 0 ∉ m) {text : Bytes}
    (h : vasprintf strerror m = .ok (some text)) :
    logn strerror log (.chars m) =
      .ok (if intMax < text.length then log else log ++ text ++ [0x0a]) := by
  rw [logn, cString_eq_self hzero, h]
  show (if intMax < text.length then Except.ok log else Except.ok (log ++ text ++ [0x0a])) = _
  split <;> rfl

end

/-- **A message is logged as it is exactly when it has no `%`** and the length of its line is in
the range of `int`. -/
theorem logn_verbatim_iff (m : Bytes) (hzero : 0 ∉ m) :
    LogsVerbatim m ↔ 0x25 ∉ m ∧ m.length ≤ intMax := by
  constructor
  · intro h
    have hempty := (h (fun _ => []) []).1
    rcases htext : vasprintf (fun _ => []) m with e | _ | text
    · simp [logn, cString_eq_self hzero, htext, bind, Except.bind] at hempty
    · simp [logn, cString_eq_self hzero, htext, bind, Except.bind, pure, Except.pure] at hempty
    · rw [logn_chars [] hzero htext, Except.ok.injEq, List.nil_append] at hempty
      by_cases hlong : intMax < text.length
      · rw [if_pos hlong] at hempty
        simp at hempty
      · rw [if_neg hlong] at hempty
        obtain rfl := List.append_cancel_right hempty
        exact ⟨vasprintf_self htext, Nat.not_lt.mp hlong⟩
  · rintro ⟨hplain, hlong⟩ strerror log
    have hlogn := logn_chars log hzero (vasprintf_plain strerror hplain)
    rw [if_neg (Nat.not_lt.mpr hlong)] at hlogn
    exact ⟨hlogn, hlogn⟩

theorem logn_verbatim_hello : LogsVerbatim (ascii "hello") :=
  (logn_verbatim_iff (ascii "hello") (by decide)).mpr ⟨by decide, by decide⟩

/-- Of two percent signs one is written, nothing of a format that ends in a directive, and a
directive that stores its count through an argument is undefined. -/
theorem logn_directives_notVerbatim :
    ¬LogsVerbatim (ascii "100%%") ∧ ¬LogsVerbatim (ascii "100%") ∧ ¬LogsVerbatim (ascii "%n") ∧
      ∀ strerror, logn strerror [] (.chars (ascii "100%%")) = .ok (ascii "100%
") ∧
        logn strerror [] (.chars (ascii "100%")) = .ok [] ∧
        logn strerror [] (.chars (ascii "%n")) = .error .badFormat := by
  refine ⟨fun h => ?_, fun h => ?_, fun h => ?_, fun strerror => ⟨rfl, rfl, rfl⟩⟩
  · exact absurd (h (fun _ => []) []).1 (by decide)
  · exact absurd (h (fun _ => []) []).1 (by decide)
  · exact absurd (h (fun _ => []) []).1 (by decide)

end Mrhc
