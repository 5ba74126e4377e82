/-! Powers of numbers. A module that knows of monoids has a second reading of `2 ^ n` at hand; here it
always means the power of the core library, so that the same text means the same in every module. -/

namespace LeibnizSieve

attribute [scoped instance (high), default_instance 20000] instPowNat

end LeibnizSieve
