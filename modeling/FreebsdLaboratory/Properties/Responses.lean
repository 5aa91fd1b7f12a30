import FreebsdLaboratory.Model.RuntimeClient

/-!
# The response does not depend on how the socket delivers it

`_read_line` takes whatever `recv` hands out.  What it returns is a function of the bytes the daemon
sent: `readChunks_eq` carries the chunks read so far through the loop, and everything it does with
them is `lineOf` of their concatenation.
-/

namespace FreebsdLaboratory

namespace RuntimeClient

/-- `chunks` is one of the ways in which `recv(4096)` can hand out `stream`. -/
structure Delivers (chunks : List (List ℕ)) (stream : List ℕ) : Prop where
  flatten : chunks.flatten = stream
  nonempty : ∀ chunk ∈ chunks, chunk ≠ []
  length_le : ∀ chunk ∈ chunks, chunk.length ≤ 4096

/-- What the client makes of a whole stream. -/
def lineOf (stream : List ℕ) : Except PyError (List ℕ) :=
  let line := stream.takeWhile (· ≠ 10)
  if stream = [] then .error closedWithoutResponse
  else if line.length > MAX_RESPONSE_BYTES then .error sizeLimitExceeded
  else .ok line

/-- What the client does behind the loop. -/
def finish (read : Except PyError (List (List ℕ) × ℕ)) : Except PyError (List ℕ) := do
  let (chunks, size) ← read
  if size > MAX_RESPONSE_BYTES then throw sizeLimitExceeded
  if chunks = [] then throw closedWithoutResponse
  return chunks.flatten

lemma finish_ok {chunks : List (List ℕ)} {size : ℕ} (hne : chunks ≠ []) :
    finish (.ok (chunks, size))
      = if size > MAX_RESPONSE_BYTES then .error sizeLimitExceeded else .ok chunks.flatten := by
  by_cases hsize : size > MAX_RESPONSE_BYTES
  · simp [finish, hsize, throw, throwThe, MonadExceptOf.throw, bind, Except.bind]
  · simp [finish, hsize, hne, bind, Except.bind, pure, Except.pure]

lemma takeWhile_append_of_mem {front rest : List ℕ} (h : 10 ∈ front) :
    (front ++ rest).takeWhile (· ≠ 10) = front.takeWhile (· ≠ 10) := by
  rw [List.takeWhile_append, if_neg]
  intro hlength
  have hall : front.takeWhile (· ≠ 10) = front :=
    (List.takeWhile_prefix _).eq_of_length hlength
  have h10 := List.mem_takeWhile_imp (hall.symm ▸ h)
  simp at h10

lemma takeWhile_append_of_not_mem {front : List ℕ} (rest : List ℕ) (h : 10 ∉ front) :
    (front ++ rest).takeWhile (· ≠ 10) = front ++ rest.takeWhile (· ≠ 10) := by
  refine List.takeWhile_append_of_pos ?_
  intro b hb
  have hne : b ≠ 10 := fun heq => h (heq ▸ hb)
  simp [hne]

/-- The loop with the chunks read so far: none of them holds a newline, and together they are
within the limit. -/
lemma finish_readChunks {read rest : List (List ℕ)} (hread : 10 ∉ read.flatten)
    (hsize : read.flatten.length ≤ MAX_RESPONSE_BYTES) (hne : ∀ chunk ∈ read ++ rest, chunk ≠ []) :
    finish (readChunks read read.flatten.length rest) = lineOf (read ++ rest).flatten := by
  induction rest generalizing read with
  | nil =>
      rw [readChunks, List.append_nil]
      by_cases hnil : read = []
      · subst hnil
        rfl
      · have hflat : read.flatten ≠ [] := by
          obtain ⟨chunk, hchunk⟩ := List.exists_mem_of_ne_nil read hnil
          intro hflat
          rw [List.flatten_eq_nil_iff] at hflat
          exact hne chunk (by simp [hchunk]) (hflat chunk hchunk)
        have hline : read.flatten.takeWhile (· ≠ 10) = read.flatten := by
          have happend := takeWhile_append_of_not_mem [] hread
          simpa only [List.append_nil, List.takeWhile_nil] using happend
        rw [finish_ok hnil]
        simp only [lineOf, hline, hflat, if_false]
  | cons chunk rest ih =>
      have hchunk : chunk ≠ [] := hne chunk (by simp)
      have hstream : (read ++ chunk :: rest).flatten ≠ [] := by
        simp [hchunk]
      rw [readChunks, if_neg hchunk]
      by_cases h10 : 10 ∈ chunk
      · have hline : (read ++ chunk :: rest).flatten.takeWhile (· ≠ 10)
            = read.flatten ++ chunk.takeWhile (· ≠ 10) := by
          rw [List.flatten_append, List.flatten_cons, takeWhile_append_of_not_mem _ hread,
            takeWhile_append_of_mem h10]
        have hflat : (read ++ [chunk.takeWhile (· ≠ 10)]).flatten
            = read.flatten ++ chunk.takeWhile (· ≠ 10) := by simp
        rw [if_pos h10, finish_ok (by simp), hflat]
        simp only [lineOf, hstream, hline, if_false, List.length_append]
      · rw [if_neg h10]
        by_cases hlimit : read.flatten.length + chunk.length > MAX_RESPONSE_BYTES
        · have hlong : MAX_RESPONSE_BYTES
              < ((read ++ chunk :: rest).flatten.takeWhile (· ≠ 10)).length := by
            rw [List.flatten_append, List.flatten_cons, takeWhile_append_of_not_mem _ hread,
              takeWhile_append_of_not_mem _ h10, List.length_append, List.length_append]
            omega
          rw [if_pos hlimit]
          simp only [lineOf, hstream, if_false]
          rw [if_pos hlong]
          rfl
        · have hflat : (read ++ [chunk]).flatten = read.flatten ++ chunk := by simp
          rw [if_neg hlimit, ← List.length_append, ← hflat, ih]
          · simp
          · simp [hread, h10]
          · rw [hflat, List.length_append]
            omega
          · simpa using hne

/-- **The client reads the same line from every delivery of a stream**: the bytes in front of the
first newline, or all of them, as far as they are within the limit. -/
theorem readLine_eq_lineOf {chunks : List (List ℕ)} {stream : List ℕ}
    (h : Delivers chunks stream) : readLine chunks = lineOf stream := by
  have hloop : finish (readChunks [] 0 chunks) = lineOf ([] ++ chunks).flatten :=
    finish_readChunks (by simp) (by simp) h.nonempty
  rw [List.nil_append, h.flatten] at hloop
  exact hloop

/-- A response of two lines that comes in two pieces. -/
theorem readLine_two_pieces :
    Delivers [[123], [125, 10, 65]] [123, 125, 10, 65]
      ∧ readLine [[123], [125, 10, 65]] = .ok [123, 125] :=
  have h : Delivers [[123], [125, 10, 65]] [123, 125, 10, 65] :=
    ⟨rfl, by simp, by simp⟩
  ⟨h, (readLine_eq_lineOf h).trans (by decide)⟩

end RuntimeClient

end FreebsdLaboratory
