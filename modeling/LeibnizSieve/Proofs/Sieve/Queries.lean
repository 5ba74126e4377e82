import LeibnizSieve.Proofs.Attempt
import LeibnizSieve.Proofs.Sieve.Primality
import Mathlib.Data.List.Sort

/-! What can be asked of a table. Every question is answered from the flags, each in its own way.
Main statement: on a table that was sieved all answers describe the same numbers, and of two tables
the shorter one has the first primes of the longer one. -/

namespace LeibnizSieve.Sieve

namespace PrimeTable

variable (t : PrimeTable) {n : ℕ}

theorem isPrime_iff : t.isPrime n = true ↔ t.flags[n]? = some true := getD_flag t.flags n

theorem mem_primes : n ∈ t.primes ↔ t.flags[n]? = some true := by
  simp [primes, List.mk_mem_zipIdx_iff_getElem?]

theorem pairwise_primes : t.primes.Pairwise (· < ·) := by
  have hindices : (t.flags.toList.zipIdx.map Prod.snd).Pairwise (· < ·) := by
    rw [List.zipIdx_map_snd]
    exact List.pairwise_lt_range'
  refine (List.pairwise_map.1 hindices).filterMap _ ?_
  rintro ⟨flag, k⟩ ⟨flag', k'⟩ hlt
  simp only [Option.ite_none_right_eq_some, Option.some.injEq, and_imp]
  rintro _ - rfl _ - rfl
  exact hlt

theorem length_filterMap_zipIdx (flags : List Bool) (start : ℕ) :
    ((flags.zipIdx start).filterMap fun (flag, n) => if flag then some n else none).length =
      flags.count true := by
  induction flags generalizing start with
  | nil => rfl
  | cons flag flags ih => cases flag <;> simp [List.zipIdx_cons, ih]

theorem count_eq : t.count = t.primes.length := by
  rw [count, primes, length_filterMap_zipIdx, Array.count_toList]

end PrimeTable

section Sieved

variable {capacity n : ℕ} {limit : UInt64} {table : PrimeTable}

theorem flags_of_sieve (h : sieve capacity limit = .ok table) :
    table.flags = ((Sweep.start limit).run limit).flags := by
  obtain ⟨-, -, htable⟩ := bind_eq_ok.1 h
  cases htable
  rfl

theorem size_of_sieve (h : sieve capacity limit = .ok table) :
    table.flags.size = limit.toNat + 1 := by
  rw [flags_of_sieve h, size_run, size_start]

theorem limit_of_sieve (h : sieve capacity limit = .ok table) : table.limit = limit.toNat := by
  rw [PrimeTable.limit, size_of_sieve h, Nat.add_sub_cancel]

theorem flag_of_sieve (h : sieve capacity limit = .ok table) :
    table.flags[n]? = some true ↔ n ≤ limit.toNat ∧ n.Prime := by
  by_cases hn : n ≤ limit.toNat
  · rw [flags_of_sieve h, run_start_flag limit hn]
    simp [hn]
  · have hsize := size_of_sieve h
    rw [Array.getElem?_eq_none (by omega)]
    simp [hn]

theorem primes_of_le {capacity' : ℕ} {smaller : UInt64} {table' : PrimeTable}
    (h : sieve capacity limit = .ok table) (h' : sieve capacity' smaller = .ok table')
    (hle : smaller ≤ limit) :
    table'.primes = table.primes.filter fun p => p ≤ smaller.toNat := by
  have hle' := UInt64.le_iff_toNat_le.1 hle
  -- two lists in order are the same when they have the same members
  refine table'.pairwise_primes.eq_of_mem_iff (table.pairwise_primes.filter _) ?_
  intro p
  rw [List.mem_filter, PrimeTable.mem_primes, PrimeTable.mem_primes, flag_of_sieve h,
    flag_of_sieve h', decide_eq_true_eq]
  constructor
  · rintro ⟨hp, hprime⟩
    exact ⟨⟨hp.trans hle', hprime⟩, hp⟩
  · rintro ⟨⟨-, hprime⟩, hp⟩
    exact ⟨hp, hprime⟩

end Sieved

/-- The table of a sieve has one flag more than its limit. It lists its primes in order and without
loss, finds the same ones by their number and counts them; past the limit it finds none. Of the
table of a smaller limit they are those up to there, so there are no more of them. -/
theorem sieve_queries_agree {capacity : ℕ} {limit : UInt64} {table : PrimeTable}
    (h : sieve capacity limit = .ok table) :
    (table.flags.size = table.limit + 1 ∧ table.limit = limit.toNat) ∧
    table.primes.Pairwise (· < ·) ∧ (∀ p ∈ table.primes, p ≤ table.limit) ∧
    (∀ n, n ∈ table.primes ↔ table.flags[n]? = some true) ∧
    (∀ n, table.isPrime n = true ↔ n ∈ table.primes) ∧
    (∀ n, table.limit < n → table.isPrime n = false) ∧
    table.count = table.primes.length ∧
    ∀ capacity' smaller table', sieve capacity' smaller = .ok table' → smaller ≤ limit →
      table'.primes = (table.primes.filter fun p => p ≤ smaller.toNat) ∧
        table'.count ≤ table.count := by
  have hlimit := limit_of_sieve h
  have hbound (n : ℕ) (hn : table.flags[n]? = some true) : n ≤ table.limit := by
    rw [hlimit]
    exact ((flag_of_sieve h).1 hn).1
  refine ⟨⟨by rw [hlimit, size_of_sieve h], hlimit⟩, table.pairwise_primes, ?_,
    fun n => table.mem_primes, ?_, ?_, table.count_eq, ?_⟩
  · intro p hp
    exact hbound p (table.mem_primes.1 hp)
  · intro n
    rw [table.isPrime_iff, table.mem_primes]
  · intro n hn
    rw [Bool.eq_false_iff, ne_eq, table.isPrime_iff]
    exact fun hflag => absurd (hbound n hflag) (by omega)
  · intro capacity' smaller table' h' hle
    have hprimes := primes_of_le h h' hle
    refine ⟨hprimes, ?_⟩
    rw [table.count_eq, table'.count_eq, hprimes]
    exact List.length_filter_le _ _

theorem sieve_queries_agree_fortyNine : ∃ table smaller,
    sieve 50 49 = .ok table ∧ sieve 49 48 = .ok smaller ∧ (48 : UInt64) ≤ 49 ∧
    table.limit = 49 ∧ table.isPrime 53 = false ∧ table.count = table.primes.length ∧
    smaller.primes = (table.primes.filter fun p => p ≤ 48) ∧ smaller.count ≤ table.count := by
  have hr : reserve 50 49 = .ok () := by rw [reserve_eq_ok_iff]; decide
  have hr' : reserve 49 48 = .ok () := by rw [reserve_eq_ok_iff]; decide
  obtain ⟨table, h, -⟩ := sieve_of_reserve hr
  obtain ⟨smaller, h', -⟩ := sieve_of_reserve hr'
  obtain ⟨⟨-, hlimit⟩, -, -, -, -, hpast, hcount, hshort⟩ := sieve_queries_agree h
  have hle : (48 : UInt64) ≤ 49 := by decide
  refine ⟨table, smaller, h, h', hle, hlimit, hpast 53 ?_, hcount, hshort 49 48 smaller h' hle⟩
  rw [hlimit]
  decide

end LeibnizSieve.Sieve
