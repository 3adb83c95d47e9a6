import MixedWorkload.Proofs.Csv.Rendering

/-!
# Records that are finished within a beginning of a file

A record is finished as soon as its terminator has been read, and what follows does not
change it. So a beginning of a file already has some of the records of the file
(`MixedWorkload.Csv.finished`), and these are the first records of every file that begins in
the same way (`MixedWorkload.Csv.finished_prefix_records`). Everything here rests on what one
byte does to the reader, which is one of three things: it is skipped, it goes into the record
that is being read, or it ends that record (`MixedWorkload.Csv.Scanner.moves_step`).

All records of a file are finished within it but possibly the last one, which need not have
a terminator. For every other one there is a beginning of the file that ends with its
terminator (`MixedWorkload.Csv.exists_endsRecord`).
-/

namespace MixedWorkload.Csv

/-! ### One byte -/

namespace Scanner

variable (s : Scanner) (byte : UInt8)

/-- **What a byte does to a reader.** -/
inductive Moves (s' : Scanner) : Prop
  /-- Between two records, a terminator is skipped. -/
  | skips (hmode : s.mode = .betweenRecords) (hterminator : isTerminator byte = true)
    (heq : s' = { s with here := s.here.advance byte })
  /-- The record goes on, or begins with a byte that is no terminator. -/
  | goesOn (hfirst : s.mode = .betweenRecords → isTerminator byte = false)
    (hmode : s'.mode ≠ .betweenRecords) (hstart : s'.start = s.start)
    (hhere : s'.here = s.here.advance byte) (hrecords : s'.records = s.records)
  /-- A terminator ends the record, and the next one begins behind it. -/
  | ends (hmode : s.mode ≠ .betweenRecords) (hterminator : isTerminator byte = true)
    (heq : s' = ({ s with here := s.here.advance byte } : Scanner).endRecord)

/-- A byte outside quotation marks that is not the first of its field. The reader has moved on
to the next place already. -/
theorem moves_stepBare (here : Position)
    (hfirst : s.mode = .betweenRecords → isTerminator byte = false)
    (hhere : s.here = here.advance byte) :
    Moves { s with here } byte (s.stepBare byte) := by
  unfold stepBare
  split
  · exact .goesOn hfirst Mode.noConfusion rfl hhere rfl
  split
  · next hterminator =>
    refine .ends (fun hmode => ?_) hterminator ?_
    · rw [hfirst hmode] at hterminator
      exact Bool.noConfusion hterminator
    · rw [← hhere]
  · exact .goesOn hfirst Mode.noConfusion rfl hhere rfl

theorem moves_stepFieldStart (here : Position)
    (hfirst : s.mode = .betweenRecords → isTerminator byte = false)
    (hhere : s.here = here.advance byte) :
    Moves { s with here } byte (s.stepFieldStart byte) := by
  unfold stepFieldStart
  split
  · exact .goesOn hfirst (fun hmode => Mode.noConfusion hmode) rfl hhere rfl
  · exact s.moves_stepBare byte here hfirst hhere

/-- **A byte is skipped, goes into the record, or ends it.** -/
theorem moves_step : s.Moves byte (s.step byte) := by
  obtain ⟨mode, field, fields, start, here, records⟩ := s
  have hbare (hmode : mode ≠ .betweenRecords) :=
    moves_stepBare ⟨mode, field, fields, start, here.advance byte, records⟩ byte here
      (fun h => absurd h hmode) rfl
  cases mode with
  | betweenRecords =>
    simp only [step]
    split
    · next hterminator => exact .skips rfl hterminator rfl
    · next hfirst =>
      exact moves_stepFieldStart ⟨_, field, fields, start, here.advance byte, records⟩ byte here
        (fun _ => Bool.eq_false_of_not_eq_true hfirst) rfl
  | fieldStart =>
    exact moves_stepFieldStart ⟨_, field, fields, start, here.advance byte, records⟩ byte here
      Mode.noConfusion rfl
  | bare => exact hbare Mode.noConfusion
  | quoted =>
    simp only [step]
    split <;> exact .goesOn Mode.noConfusion Mode.noConfusion rfl rfl rfl
  | quoteInQuoted =>
    simp only [step]
    split
    · exact .goesOn Mode.noConfusion Mode.noConfusion rfl rfl rfl
    · exact hbare Mode.noConfusion

/-- **What a byte may finish**: the record being read, if the byte is a terminator, and
nothing otherwise. -/
def Finishes (s' : Scanner) : Prop :=
  s'.records = s.records ∨ isTerminator byte = true ∧ s'.records = s.record :: s.records

/-- **A byte finishes at most one record**, and only if it is a terminator. -/
theorem finishes_step : s.Finishes byte (s.step byte) := by
  rcases s.moves_step byte with ⟨-, -, heq⟩ | ⟨-, -, -, -, hrecords⟩ | ⟨-, hterminator, heq⟩
  · rw [heq]
    exact Or.inl rfl
  · exact Or.inl hrecords
  · rw [heq]
    exact Or.inr ⟨hterminator, rfl⟩

/-- At the end of a file the record being read, if there is one, joins the finished ones. -/
theorem finish_eq : s.finish = s.records.reverse ∨ s.finish = s.records.reverse ++ [s.record] := by
  unfold finish
  split
  · exact Or.inl rfl
  · exact Or.inr List.reverse_cons

end Scanner

/-! ### Beginnings of a file -/

/-- The reader at the end of a beginning of a file. -/
def scan (front : List UInt8) : Scanner :=
  (afterByteOrderMark front).2.foldl Scanner.step (Scanner.init (afterByteOrderMark front).1)

/-- **The records that are finished** within a beginning of a file. -/
def finished (front : List UInt8) : List Record :=
  (scan front).records.reverse

/-- **A beginning of a file that ends with the terminator of a record**, the one with a given
position, the first being zero. -/
structure EndsRecord (front : List UInt8) (n : ℕ) : Prop where
  /-- The record is the last one that is finished. -/
  length_eq : (finished front).length = n + 1
  /-- It is not without the last byte. -/
  length_dropLast : (finished front.dropLast).length = n

/-- **The last record** may be finished by nothing but the end of the file. -/
theorem records_eq (file : List UInt8) :
    records file = finished file ∨ ∃ r, records file = finished file ++ [r] :=
  (scan file).finish_eq.imp_right fun h => ⟨_, h⟩

variable {front : List UInt8} {byte : UInt8}

/-- A byte that does not complete a byte-order mark is a step of the reader. -/
theorem scan_concat (h : front ++ [byte] ≠ byteOrderMark) :
    scan (front ++ [byte]) = (scan front).step byte := by
  by_cases hmark : byteOrderMark <+: front
  · obtain ⟨rest, rfl⟩ := hmark
    have hrest : scan (byteOrderMark ++ rest ++ [byte]) =
        (rest ++ [byte]).foldl Scanner.step (Scanner.init ⟨1, 3⟩) := rfl
    rw [hrest, List.foldl_append]
    rfl
  · have hmark' : ¬byteOrderMark <+: front ++ [byte] := by
      rw [List.prefix_concat_iff]
      exact fun hor => hor.elim (fun heq => h heq.symm) hmark
    rw [scan, afterByteOrderMark_eq hmark', List.foldl_append, scan, afterByteOrderMark_eq hmark]
    rfl

/-- Before a byte-order mark is complete, there is no record. -/
theorem finished_of_concat_eq_byteOrderMark (h : front ++ [byte] = byteOrderMark) :
    finished front = [] := by
  have hfront : front = [0xEF, 0xBB] := by
    have hdrop := congrArg List.dropLast h
    rwa [List.dropLast_concat] at hdrop
  rw [hfront]
  rfl

/-- **One more byte finishes one record at most**, and only if it is a terminator. -/
theorem finished_concat (front : List UInt8) (byte : UInt8) :
    finished (front ++ [byte]) = finished front ∨
      isTerminator byte = true ∧ ∃ r, finished (front ++ [byte]) = finished front ++ [r] := by
  by_cases hmark : front ++ [byte] = byteOrderMark
  · rw [finished_of_concat_eq_byteOrderMark hmark, hmark]
    exact Or.inl rfl
  · rw [finished, scan_concat hmark]
    rcases (scan front).finishes_step byte with heq | ⟨hterminator, heq⟩
    · rw [heq]
      exact Or.inl rfl
    · rw [heq, List.reverse_cons]
      exact Or.inr ⟨hterminator, _, rfl⟩

/-- **What is finished stays**, whatever follows. -/
theorem finished_prefix_append (front rest : List UInt8) :
    finished front <+: finished (front ++ rest) := by
  induction rest using List.reverseRecOn with
  | nil =>
    rw [List.append_nil]
  | append_singleton rest byte ih =>
    rw [← List.append_assoc]
    rcases finished_concat (front ++ rest) byte with heq | ⟨-, r, heq⟩
    · rwa [heq]
    · rw [heq]
      exact ih.trans (List.prefix_append _ _)

/-- **The records finished within a beginning** are the first records of the file. -/
theorem finished_prefix_records (front rest : List UInt8) :
    finished front <+: records (front ++ rest) := by
  refine (finished_prefix_append front rest).trans ?_
  rcases records_eq (front ++ rest) with heq | ⟨r, heq⟩ <;> rw [heq]
  exact List.prefix_append _ _

/-- **Every finished record has its terminator**: some beginning of the file ends with it. -/
theorem exists_endsRecord {file : List UInt8} {n : ℕ} (h : n < (finished file).length) :
    ∃ front rest, file = front ++ rest ∧ EndsRecord front n := by
  induction file using List.reverseRecOn with
  | nil => exact absurd h (Nat.not_lt_zero n)
  | append_singleton file byte ih =>
    by_cases hn : n < (finished file).length
    · obtain ⟨front, rest, rfl, hfront⟩ := ih hn
      exact ⟨front, rest ++ [byte], List.append_assoc _ _ _, hfront⟩
    · -- the last byte is the one that finishes the record
      refine ⟨file ++ [byte], [], (List.append_nil _).symm, ?_⟩
      rcases finished_concat file byte with heq | ⟨-, r, heq⟩
      · rw [heq] at h
        exact absurd h hn
      · rw [heq, List.length_append, List.length_singleton] at h
        constructor
        · rw [heq, List.length_append, List.length_singleton]
          omega
        · rw [List.dropLast_concat]
          omega

end MixedWorkload.Csv
